import Mathlib.Data.List.Induction
import Saganova.Concurrency.Sequential
import Saganova.SagaDecisions
import Saganova.Services

/-!
# The orchestrator one message at a time

A `Delivery` is a message and what the outside answers while it is handled; a
run is a list of them, each handled to its end.  `handle_effect` says what
one delivery does to the rows and to the commands published, in terms of the
decision it comes to, and `handle_reaction` lists what that can be.

`compensationNeverSkipped_iff`: the release of a reservation is never skipped
before `CancelOrder` exactly in the runs where no `PaymentDeclined` cancels a
saga at its payment step.  `RELEASE_INVENTORY` is declared as the compensation
of the payment step itself, and a failure undoes only the steps before it.
-/

namespace Saganova

open Concurrency Decision

/-- One message handled by the orchestrator.  A delivery publishes at most one
command, so one answer of the broker is enough. -/
structure Delivery where
  record : Record EventEnvelope
  published : Except Err Unit := .ok ()
  committed : Except Err Unit := .ok ()
  uuid : ℕ → Uuid
  clock : ℕ → Time

namespace Delivery

abbrev envelope (d : Delivery) : EventEnvelope := d.record.value

abbrev task (d : Delivery) : Task := .event d.record

def answer (d : Delivery) (k : ℕ) : (a : Act) → Act.Reply a
  | .randomUUID => d.uuid k
  | .randomUUIDs => fun i => d.uuid (k + i)
  | .now => d.clock k
  | .publish _ _ _ => d.published
  | .authorize _ => ⟨false, .error (.gateway "not called")⟩
  | .refund _ _ _ => .error (.gateway "not called")
  | .commitOffsets _ _ _ => d.committed

end Delivery

def handle (s : Shared) (d : Delivery) : Shared := (Proc.run d.answer d.task (code d.task) s).2

def after (ds : List Delivery) : Shared := ds.foldl handle ⟨[], []⟩

@[simp] theorem after_nil : after [] = ⟨[], []⟩ := rfl

@[simp] theorem after_snoc (ds : List Delivery) (d : Delivery) :
    after (ds ++ [d]) = handle (after ds) d := by simp [after]

/-- The saga row of an order. -/
def sagaRow (s : Shared) (orderId : Uuid) : Option SagaInstanceRow :=
  Store.row s.db (.sagaInstance orderId)

/-- The command that an event of the trace published, if it did. -/
def confirmedCommand : Event Row Act.Reply Task → Option CommandEnvelope
  | .acted _ (.publish .sagaCommands (.command c) _) (.ok ()) => some c
  | _ => none

/-- The commands published so far, oldest first. -/
def commandsOf (s : Shared) : List CommandEnvelope := s.trace.reverse.filterMap confirmedCommand

section Publishing

variable (s : Shared) (t : Task)

theorem commandsOf_acted (a : Act) (r : Act.Reply a) :
    commandsOf (s.acted t a r) = commandsOf s ++ (confirmedCommand (.acted t a r)).toList := by
  unfold commandsOf
  rw [Shared.acted_trace, List.reverse_cons, List.filterMap_append]
  cases h : confirmedCommand (.acted t a r) <;> simp [h]

@[simp] theorem commandsOf_commit (w : Db) : commandsOf (s.commit t w) = commandsOf s := by
  simp [commandsOf, confirmedCommand]

@[simp] theorem commandsOf_randomUUID (r : Uuid) :
    commandsOf (s.acted t .randomUUID r) = commandsOf s := by
  rw [commandsOf_acted]
  exact List.append_nil _

@[simp] theorem commandsOf_now (r : Time) : commandsOf (s.acted t .now r) = commandsOf s := by
  rw [commandsOf_acted]
  exact List.append_nil _

@[simp] theorem commandsOf_commitOffsets (topic : Topic) (p o : ℕ) (r : Except Err Unit) :
    commandsOf (s.acted t (.commitOffsets topic p o) r) = commandsOf s := by
  rw [commandsOf_acted]
  exact List.append_nil _

theorem commandsOf_publish_ok (c : CommandEnvelope) (key : String) :
    commandsOf (s.acted t (.publish .sagaCommands (.command c) key) (.ok ())) =
      commandsOf s ++ [c] := by
  rw [commandsOf_acted]
  rfl

theorem commandsOf_publish_error (c : CommandEnvelope) (key : String) (e : Err) :
    commandsOf (s.acted t (.publish .sagaCommands (.command c) key) (.error e)) =
      commandsOf s := by
  rw [commandsOf_acted]
  exact List.append_nil _

@[simp] theorem sagaRow_acted (a : Act) (r : Act.Reply a) (orderId : Uuid) :
    sagaRow (s.acted t a r) orderId = sagaRow s orderId := rfl

end Publishing

/-! ## One delivery -/

/-- The times and the id that a delivery is given. -/
structure Stamps where
  time : Time
  id : Uuid
  issuedAt : Time

def Delivery.Gives (d : Delivery) (st : Stamps) : Prop :=
  (∃ k, d.clock k = st.time) ∧ (∃ k, d.uuid k = st.id) ∧ ∃ k, d.clock k = st.issuedAt

def Stamps.command (st : Stamps) (type : CommandType) (payload : Payload)
    (correlationId : String) : CommandEnvelope where
  id := st.id
  type := type
  version := eventEnvelopeVersion
  correlationId := correlationId
  issuedAt := st.issuedAt
  payload := payload

/-- What a publish adds to the commands: one command if the broker took it. -/
def sends (published : Except Err Unit) (c : CommandEnvelope) : List CommandEnvelope :=
  if published = .ok () then [c] else []

/-- What a decision comes to: the order's row after it, and the commands
published.  A refused publish ends `start` and `advance` before their save. -/
def Decision.effect (published : Except Err Unit) (correlationId : String) (st : Stamps)
    (row : Option SagaInstanceRow) : Decision → Option SagaInstanceRow × List CommandEnvelope
  | .ignore => (row, [])
  | .fail _ => (row, [])
  | .start context =>
    (if published = .ok () then some (startedRow context st.time correlationId) else row,
      sends published (st.command .reserveStock
        { orderId := context.orderId, lines := context.lines } correlationId))
  | .resave r => (some { r with correlationId }, [])
  | .advance r context =>
    (if published = .ok () then some (advancedRow r context st.time correlationId) else row,
      sends published (st.command .authorizePayment
        { orderId := context.orderId, customerId := context.customerId
          amountCents := context.amountCents } correlationId))
  | .complete r context =>
    (some (completedRow r context st.time correlationId),
      sends published (st.command .confirmOrder
        { orderId := context.orderId, paymentId := context.paymentId } correlationId))
  | .cancel r context step =>
    (some (cancelledRow r context step st.time correlationId),
      sends published (st.command .cancelOrder
        { orderId := context.orderId, reason := some s!"Saga failed at step \"{step}\"" }
        correlationId))

/-- The upsert of a saga row always succeeds and writes it. -/
theorem exec_saveRow (db : Db) (orderId : Uuid) (row : SagaInstanceRow) :
    (upsert (.sagaInstance orderId) (insert (.sagaInstance orderId) row) fun _ => row).exec db [] =
      .ok ((), [⟨.sagaInstance orderId, row⟩]) := by
  unfold upsert insert
  rw [Tx.exec_lock]
  cases h : Store.row ([] ++ db) (.sagaInstance orderId) with
  | some old => rfl
  | none =>
    simp only [Tx.exec_lock, h, Tx.exec_put]
    rfl

section Run

variable (d : Delivery) (s : Shared)

/-- The stamps of a row written at `time` next to a publish begun at the `k`-th event. -/
def Delivery.stamps (time : Time) (k : ℕ) : Stamps where
  time := time
  id := d.uuid k
  issuedAt := d.clock (k + 1)

theorem Delivery.gives_stamps (i k : ℕ) : d.Gives (d.stamps (d.clock i) k) :=
  ⟨⟨i, rfl⟩, ⟨k, rfl⟩, ⟨k + 1, rfl⟩⟩

/-- A publish ends with the broker's answer. -/
theorem run_publish (time : Time) (type : CommandType) (payload : Payload)
    (correlationId : String) :
    ∃ s', Proc.run d.answer d.task
        (SagaCommandProducer.publish type (some payload) correlationId) s = (d.published, s') ∧
      s'.db = s.db ∧
      commandsOf s' = commandsOf s ++ sends d.published
        ((d.stamps time s.trace.length).command type payload correlationId) := by
  simp only [SagaCommandProducer.publish_eq, Proc.run_act, Delivery.answer]
  cases hp : d.published with
  | ok u =>
    refine ⟨_, rfl, rfl, ?_⟩
    rw [commandsOf_publish_ok, commandsOf_now, commandsOf_randomUUID]
    rfl
  | error e =>
    refine ⟨_, rfl, rfl, ?_⟩
    rw [commandsOf_publish_error, commandsOf_now, commandsOf_randomUUID]
    exact (List.append_nil _).symm

theorem run_saveRow (orderId : Uuid) (row : SagaInstanceRow) :
    Proc.run d.answer d.task (saveRow orderId row) s =
      (.ok (), s.commit d.task [⟨.sagaInstance orderId, row⟩]) :=
  Proc.run_tx_ok _ _ _ (exec_saveRow s.db orderId row)

@[simp] theorem sagaRow_saved (orderId : Uuid) (row : SagaInstanceRow) :
    sagaRow (s.commit d.task [⟨.sagaInstance orderId, row⟩]) orderId = some row :=
  Store.row_cons_self s.db (.sagaInstance orderId) row

theorem sagaRow_saved_ne {orderId o : Uuid} (row : SagaInstanceRow) (h : o ≠ orderId) :
    sagaRow (s.commit d.task [⟨.sagaInstance orderId, row⟩]) o = sagaRow s o :=
  @Store.row_cons_ne _ _ _ s.db _ (.sagaInstance orderId) row (by simpa using h)

/-- A publish that has to succeed before `p` goes on. -/
theorem run_publish_bind (time : Time) (type : CommandType) (payload : Payload)
    (correlationId : String) (p : Handler Unit) :
    ∃ s', s'.db = s.db ∧
      commandsOf s' = commandsOf s ++ sends d.published
        ((d.stamps time s.trace.length).command type payload correlationId) ∧
      (Proc.run d.answer d.task (do
        SagaCommandProducer.publish type (some payload) correlationId
        p) s).2 = if d.published = .ok () then (Proc.run d.answer d.task p s').2 else s' := by
  obtain ⟨s', hrun, hdb, hsent⟩ := run_publish d s time type payload correlationId
  refine ⟨s', hdb, hsent, ?_⟩
  rw [Proc.run_bind, hrun]
  cases hp : d.published with
  | ok u => rw [if_pos rfl]
  | error e => rw [if_neg (by simp)]

/-- A row saved, and then a publish. -/
theorem run_save_publish (time : Time) (orderId : Uuid) (row : SagaInstanceRow)
    (type : CommandType) (payload : Payload) (correlationId : String) :
    ∃ s' k, (Proc.run d.answer d.task (do
        saveRow orderId row
        SagaCommandProducer.publish type (some payload) correlationId) s).2 = s' ∧
      commandsOf s' = commandsOf s ++
        sends d.published ((d.stamps time k).command type payload correlationId) ∧
      (∀ o ≠ orderId, sagaRow s' o = sagaRow s o) ∧ sagaRow s' orderId = some row := by
  let saved := s.commit d.task [⟨.sagaInstance orderId, row⟩]
  obtain ⟨s', hrun, hdb, hsent⟩ := run_publish d saved time type payload correlationId
  have hrows : ∀ o, sagaRow s' o = sagaRow saved o := fun o => by unfold sagaRow; rw [hdb]
  refine ⟨s', saved.trace.length, ?_, by rw [hsent, commandsOf_commit],
    fun o ho => (hrows o).trans (sagaRow_saved_ne d s row ho), by rw [hrows, sagaRow_saved]⟩
  rw [Proc.run_bind, run_saveRow]
  show (Proc.run d.answer d.task _ saved).2 = s'
  rw [hrun]

/-- What a decision does, run alone. -/
theorem run_perform (orderId : Uuid) (correlationId : String) (decision : Decision) :
    ∃ st, d.Gives st ∧
      commandsOf (Proc.run d.answer d.task (perform orderId correlationId decision) s).2 =
        commandsOf s ++
          (decision.effect d.published correlationId st (sagaRow s orderId)).2 ∧
      (∀ o ≠ orderId, sagaRow (Proc.run d.answer d.task
        (perform orderId correlationId decision) s).2 o = sagaRow s o) ∧
      sagaRow (Proc.run d.answer d.task (perform orderId correlationId decision) s).2 orderId =
        (decision.effect d.published correlationId st (sagaRow s orderId)).1 := by
  cases decision with
  | ignore =>
    exact ⟨_, d.gives_stamps 0 0, (List.append_nil _).symm, fun _ _ => rfl, rfl⟩
  | fail e =>
    exact ⟨_, d.gives_stamps 0 0, (List.append_nil _).symm, fun _ _ => rfl, rfl⟩
  | resave row =>
    refine ⟨_, d.gives_stamps 0 0, ?_, fun o ho => ?_, ?_⟩ <;> simp only [perform, run_saveRow]
    · rw [commandsOf_commit]
      exact (List.append_nil _).symm
    · exact sagaRow_saved_ne d s _ ho
    · exact sagaRow_saved d s orderId _
  | start context =>
    -- the row's time is read after the publish
    obtain ⟨s', hdb, hsent, hrun⟩ := run_publish_bind d s "" .reserveStock
      { orderId := context.orderId, lines := context.lines } correlationId (do
        let time ← now
        saveRow orderId (startedRow context time correlationId))
    have hrows : ∀ o, sagaRow s' o = sagaRow s o := fun o => by unfold sagaRow; rw [hdb]
    refine ⟨_, d.gives_stamps s'.trace.length s.trace.length, ?_⟩
    simp only [perform, hrun, Decision.effect]
    by_cases hp : d.published = .ok ()
    · simp only [if_pos hp, now_bind, Proc.run_act, run_saveRow, commandsOf_commit,
        commandsOf_now, sagaRow_saved]
      exact ⟨hsent, fun o ho => (sagaRow_saved_ne d _ _ ho).trans (hrows o), rfl⟩
    · simp only [if_neg hp, hrows]
      exact ⟨hsent, fun _ _ => trivial, trivial⟩
  | advance row context =>
    let time := d.clock s.trace.length
    let timed := s.acted d.task .now time
    obtain ⟨s', hdb, hsent, hrun⟩ := run_publish_bind d timed time .authorizePayment
      { orderId := context.orderId, customerId := context.customerId
        amountCents := context.amountCents } correlationId
      (saveRow orderId (advancedRow row context time correlationId))
    have hrows : ∀ o, sagaRow s' o = sagaRow s o := fun o => by unfold sagaRow; rw [hdb]; rfl
    refine ⟨_, d.gives_stamps s.trace.length timed.trace.length, ?_⟩
    rw [commandsOf_now] at hsent
    simp only [perform, now_bind, Proc.run_act]
    simp only [Delivery.answer, Decision.effect]
    rw [hrun]
    by_cases hp : d.published = .ok ()
    · simp only [if_pos hp, run_saveRow, commandsOf_commit, sagaRow_saved]
      exact ⟨hsent, fun o ho => (sagaRow_saved_ne d _ _ ho).trans (hrows o), rfl⟩
    · simp only [if_neg hp, hrows]
      exact ⟨hsent, fun _ _ => trivial, trivial⟩
  | complete row context =>
    let time := d.clock s.trace.length
    obtain ⟨s', k, hrun, hsent, hothers, hrow⟩ := run_save_publish d
      (s.acted d.task .now time) time orderId (completedRow row context time correlationId)
      .confirmOrder { orderId := context.orderId, paymentId := context.paymentId } correlationId
    refine ⟨_, d.gives_stamps s.trace.length k, ?_⟩
    simp only [perform, now_bind, Proc.run_act]
    simp only [Delivery.answer]
    rw [hrun, hrow]
    exact ⟨hsent.trans (by rw [commandsOf_now]; rfl), hothers, rfl⟩
  | cancel row context step =>
    let time := d.clock s.trace.length
    obtain ⟨s', k, hrun, hsent, hothers, hrow⟩ := run_save_publish d
      (s.acted d.task .now time) time orderId (cancelledRow row context step time correlationId)
      .cancelOrder { orderId := context.orderId
                     reason := some s!"Saga failed at step \"{step}\"" } correlationId
    refine ⟨_, d.gives_stamps s.trace.length k, ?_⟩
    simp only [perform, now_bind, Proc.run_act]
    simp only [Delivery.answer]
    rw [hrun, hrow]
    exact ⟨hsent.trans (by rw [commandsOf_now]; rfl), hothers, rfl⟩

/-- Committing the offset changes no row and publishes no command. -/
theorem handle_eq :
    let s' := (Proc.run d.answer d.task (SagaEventConsumer.dispatch d.envelope) s).2
    commandsOf (handle s d) = commandsOf s' ∧ ∀ o, sagaRow (handle s d) o = sagaRow s' o := by
  unfold handle code eachMessage
  rw [Proc.run_bind]
  cases h : Proc.run d.answer d.task (SagaEventConsumer.dispatch d.record.value) s with
  | mk r s' =>
    cases r with
    | error e => exact ⟨rfl, fun _ => rfl⟩
    | ok u =>
      simp only [commitOffsets, Proc.perform_bind, Proc.run_act, Delivery.answer]
      cases d.committed with
      | ok u => exact ⟨commandsOf_commitOffsets _ _ _ _ _ _, fun _ => rfl⟩
      | error e => exact ⟨commandsOf_commitOffsets _ _ _ _ _ _, fun _ => rfl⟩

/-- **What one delivery does**: nothing, or what its decision comes to for one order. -/
theorem handle_effect :
    (decisionOf d.envelope = none ∧ commandsOf (handle s d) = commandsOf s ∧
      ∀ o, sagaRow (handle s d) o = sagaRow s o) ∨
    ∃ orderId decision st, decisionOf d.envelope = some (orderId, decision) ∧ d.Gives st ∧
      commandsOf (handle s d) = commandsOf s ++ ((decision (sagaRow s orderId)).effect
        d.published d.envelope.correlationId st (sagaRow s orderId)).2 ∧
      (∀ o ≠ orderId, sagaRow (handle s d) o = sagaRow s o) ∧
      sagaRow (handle s d) orderId = ((decision (sagaRow s orderId)).effect
        d.published d.envelope.correlationId st (sagaRow s orderId)).1 := by
  obtain ⟨hcommands, hrows⟩ := handle_eq d s
  rcases dispatch_cases d.envelope with ⟨hnone, hend⟩ | ⟨orderId, decision, hdec, hdispatch⟩
  · left
    have hsame : (Proc.run d.answer d.task (SagaEventConsumer.dispatch d.envelope) s).2 = s := by
      rcases hend with hend | ⟨e, hend⟩ <;> rw [hend] <;> simp
    rw [hsame] at hcommands
    exact ⟨hnone, hcommands, fun o => by rw [hrows, hsame]⟩
  · right
    have hrun : Proc.run d.answer d.task (SagaEventConsumer.dispatch d.envelope) s =
        Proc.run d.answer d.task (perform orderId d.envelope.correlationId
          (decision (sagaRow s orderId))) s := by
      rw [hdispatch, Proc.run_read]
      rfl
    obtain ⟨st, hst, hsent, hothers, hrow⟩ := run_perform d s orderId d.envelope.correlationId
      (decision (sagaRow s orderId))
    rw [← hrun] at hsent hothers hrow
    exact ⟨orderId, decision, st, hdec, hst, hcommands.trans hsent,
      fun o ho => (hrows o).trans (hothers o ho), (hrows orderId).trans hrow⟩

end Run

/-! ## Reactions -/

/-- Neither COMPLETED nor COMPENSATED. -/
def SagaInstanceRow.Open (row : SagaInstanceRow) : Prop :=
  ¬ (row.status = .completed ∨ row.status = .compensated)

/-- The context that OrderCreated opens a saga with. -/
def openingContext (orderId : Uuid) (items : List OrderLineItem) (p : Payload) :
    OrderFulfillmentContext where
  orderId := some orderId
  customerId := p.customerId
  lines := some (items.map fun i => { sku := i.sku, qty := i.qty })
  amountCents := p.totalCents

/-- What a message for an order can do: the order's row before and after, and
the commands published.  A publish that `start` or `advance` needs and does
not get leaves `nothing`. -/
inductive Reaction (published : Except Err Unit) (e : EventEnvelope) (orderId : Uuid)
    (st : Stamps) :
    Option SagaInstanceRow → Option SagaInstanceRow → List CommandEnvelope → Prop
  | nothing {row : Option SagaInstanceRow} : Reaction published e orderId st row row []
  | started {items : List OrderLineItem} : published = .ok () →
      e.type = .orderCreated → e.payload.items = some items →
      Reaction published e orderId st none
        (some (startedRow (openingContext orderId items e.payload) st.time e.correlationId))
        [st.command .reserveStock
          { orderId := some orderId
            lines := (openingContext orderId items e.payload).lines } e.correlationId]
  | resaved {row : SagaInstanceRow} : row.Open → e.type ≠ .orderCreated →
      Reaction published e orderId st (some row)
        (some { row with correlationId := e.correlationId }) []
  | advanced {row : SagaInstanceRow} : published = .ok () → row.Open → row.currentStepIndex = 0 →
      e.type = .inventoryReserved → orderId ≠ "" →
      Reaction published e orderId st (some row)
        (some (advancedRow row (row.context.spread e.payload) st.time e.correlationId))
        [st.command .authorizePayment
          { orderId := (row.context.spread e.payload).orderId
            customerId := (row.context.spread e.payload).customerId
            amountCents := (row.context.spread e.payload).amountCents } e.correlationId]
  | completed {row : SagaInstanceRow} : row.Open → row.currentStepIndex = 1 →
      e.type = .paymentAuthorized → orderId ≠ "" →
      Reaction published e orderId st (some row)
        (some (completedRow row (row.context.spread e.payload) st.time e.correlationId))
        (sends published (st.command .confirmOrder
          { orderId := (row.context.spread e.payload).orderId
            paymentId := (row.context.spread e.payload).paymentId } e.correlationId))
  | cancelled {row : SagaInstanceRow} {step : SagaStep OrderFulfillmentContext Payload} :
      row.Open → orderFulfillmentSaga.steps[row.currentStepIndex]? = some step →
      e.type = step.failureEvent → orderId ≠ "" →
      Reaction published e orderId st (some row)
        (some (cancelledRow row (row.context.spread e.payload) step.name st.time e.correlationId))
        (sends published (st.command .cancelOrder
          { orderId := (row.context.spread e.payload).orderId
            reason := some s!"Saga failed at step \"{step.name}\"" } e.correlationId))

/-- The saga has two steps. -/
theorem steps_cases {index : ℕ} {step : SagaStep OrderFulfillmentContext Payload}
    (h : orderFulfillmentSaga.steps[index]? = some step) :
    (index = 0 ∧ step = reserveInventory) ∨ (index = 1 ∧ step = authorizePayment) := by
  match index with
  | 0 => exact .inl ⟨rfl, (Option.some.inj h).symm⟩
  | 1 => exact .inr ⟨rfl, (Option.some.inj h).symm⟩
  | _ + 2 => cases h

/-- A decision is on the order that the payload names. -/
theorem decisionOf_cases {e : EventEnvelope} {orderId : Uuid}
    {decision : Option SagaInstanceRow → Decision} (h : decisionOf e = some (orderId, decision)) :
    e.payload.orderId = some orderId ∧
    ((e.type = .orderCreated ∧ ∃ items, e.payload.items = some items ∧
        decision = fun row => decideStart row (openingContext orderId items e.payload)) ∨
      (e.type ≠ .orderCreated ∧ orderId ≠ "" ∧
        decision = fun row => decideEvent row e.type e.payload)) := by
  unfold decisionOf at h
  by_cases htype : e.type = .orderCreated
  · simp only [if_pos htype] at h
    split at h
    · rename_i items id hitems hid
      cases h
      exact ⟨hid, .inl ⟨htype, items, hitems, rfl⟩⟩
    · cases h
  · simp only [if_neg htype] at h
    split at h
    · rename_i id hid
      obtain ⟨hsome, hne⟩ := Option.filter_eq_some_iff.mp hid
      cases h
      exact ⟨hsome, .inr ⟨htype, by simpa using hne, rfl⟩⟩
    · cases h

section Effect

variable (published : Except Err Unit) (e : EventEnvelope) (orderId : Uuid) (st : Stamps)
  (row : Option SagaInstanceRow)

theorem reaction_of_start {items : List OrderLineItem} (htype : e.type = .orderCreated)
    (hitems : e.payload.items = some items) :
    let effect := (decideStart row (openingContext orderId items e.payload)).effect published
      e.correlationId st row
    Reaction published e orderId st row effect.1 effect.2 := by
  cases row with
  | some r => exact .nothing
  | none =>
    simp only [decideStart, Decision.effect, sends]
    by_cases hp : published = .ok ()
    · simp only [if_pos hp]
      exact .started hp htype hitems
    · simp only [if_neg hp]
      exact .nothing

theorem reaction_of_event (htype : e.type ≠ .orderCreated) (hid : orderId ≠ "") :
    let effect := (decideEvent row e.type e.payload).effect published e.correlationId st row
    Reaction published e orderId st row effect.1 effect.2 := by
  cases row with
  | none => exact .nothing
  | some r =>
    unfold decideEvent
    by_cases hfinal : r.status = .completed ∨ r.status = .compensated
    · simp only [if_pos hfinal]
      exact .nothing
    · simp only [if_neg hfinal]
      split
      · rename_i hindex
        split
        · rename_i hsuccess
          simp only [Decision.effect, sends]
          by_cases hp : published = .ok ()
          · simp only [if_pos hp]
            exact .advanced hp hfinal hindex hsuccess hid
          · simp only [if_neg hp]
            exact .nothing
        · split
          · rename_i hfailure
            exact @Reaction.cancelled _ _ _ _ r reserveInventory hfinal (by rw [hindex]; rfl)
              hfailure hid
          · exact .resaved hfinal htype
      · rename_i hindex
        split
        · rename_i hsuccess
          exact .completed hfinal hindex hsuccess hid
        · split
          · rename_i hfailure
            exact @Reaction.cancelled _ _ _ _ r authorizePayment hfinal (by rw [hindex]; rfl)
              hfailure hid
          · exact .resaved hfinal htype
      · exact .nothing

end Effect

theorem reaction_of_decision {e : EventEnvelope} {orderId : Uuid}
    {decision : Option SagaInstanceRow → Decision} (hdec : decisionOf e = some (orderId, decision))
    (published : Except Err Unit) (st : Stamps) (row : Option SagaInstanceRow) :
    let effect := (decision row).effect published e.correlationId st row
    Reaction published e orderId st row effect.1 effect.2 := by
  obtain ⟨-, ⟨htype, items, hitems, rfl⟩ | ⟨htype, hne, rfl⟩⟩ := decisionOf_cases hdec
  · exact reaction_of_start _ _ _ _ _ htype hitems
  · exact reaction_of_event _ _ _ _ _ htype hne

/-- **One delivery.**  It changes at most the row of the order its payload
names, by a `Reaction`, which says what it publishes. -/
theorem handle_reaction (d : Delivery) (s : Shared) :
    (commandsOf (handle s d) = commandsOf s ∧ ∀ o, sagaRow (handle s d) o = sagaRow s o) ∨
    ∃ orderId st sent, d.envelope.payload.orderId = some orderId ∧
      commandsOf (handle s d) = commandsOf s ++ sent ∧
      (∀ o ≠ orderId, sagaRow (handle s d) o = sagaRow s o) ∧
      Reaction d.published d.envelope orderId st (sagaRow s orderId)
        (sagaRow (handle s d) orderId) sent := by
  rcases handle_effect d s with ⟨-, hcommands, hrows⟩ |
    ⟨orderId, decision, st, hdec, -, hsent, hothers, hrow⟩
  · exact .inl ⟨hcommands, hrows⟩
  · refine .inr ⟨orderId, st, _, (decisionOf_cases hdec).1, hsent, hothers, ?_⟩
    rw [hrow]
    exact reaction_of_decision hdec _ _ _

section Reaction

variable {published : Except Err Unit} {e : EventEnvelope} {orderId : Uuid} {st : Stamps}
  {row row' : Option SagaInstanceRow} {sent : List CommandEnvelope}

theorem mem_sends {c c' : CommandEnvelope} (h : c' ∈ sends published c) :
    published = .ok () ∧ c' = c := by
  unfold sends at h
  split at h
  · exact ⟨‹_›, List.mem_singleton.mp h⟩
  · cases h

/-- The row keeps naming its order. -/
theorem Reaction.context (h : Reaction published e orderId st row row' sent)
    (hid : e.payload.orderId = some orderId)
    (hrow : ∀ r, row = some r → r.context.orderId = some orderId) :
    ∀ r, row' = some r → r.context.orderId = some orderId := by
  have hspread : ∀ r : SagaInstanceRow, (r.context.spread e.payload).orderId = some orderId :=
    fun r => Payload.spread_orderId_of_some hid
  intro r' hr'
  cases h with
  | nothing => exact hrow r' hr'
  | started => cases hr'; rfl
  | @resaved r => cases hr'; exact hrow r rfl
  | @advanced r => cases hr'; exact hspread r
  | @completed r => cases hr'; exact hspread r
  | @cancelled r => cases hr'; exact hspread r

/-- The saga stays where it is or takes its one step forward. -/
theorem Reaction.index (h : Reaction published e orderId st row row' sent) :
    ∀ r', row' = some r' →
      (row = none ∧ r'.currentStepIndex = 0) ∨
      ∃ r, row = some r ∧ (r'.currentStepIndex = r.currentStepIndex ∨
        r.currentStepIndex = 0 ∧ r'.currentStepIndex = 1 ∧ e.type = .inventoryReserved ∧
          orderId ≠ "") := by
  intro r' hr'
  cases h with
  | nothing => exact .inr ⟨r', hr', .inl rfl⟩
  | started => cases hr'; exact .inl ⟨rfl, rfl⟩
  | resaved => cases hr'; exact .inr ⟨_, rfl, .inl rfl⟩
  | @advanced r _ _ hindex htype hid =>
    cases hr'
    exact .inr ⟨r, rfl, .inr ⟨hindex, rfl, htype, hid⟩⟩
  | @completed r => cases hr'; exact .inr ⟨r, rfl, .inl rfl⟩
  | @cancelled r => cases hr'; exact .inr ⟨r, rfl, .inl rfl⟩

/-- A row is never removed. -/
theorem Reaction.isSome (h : Reaction published e orderId st row row' sent) (hrow : row.isSome) :
    row'.isSome := by
  cases h with
  | nothing => exact hrow
  | _ => rfl

/-- What each command published is, and whose. -/
theorem Reaction.sent_cases (h : Reaction published e orderId st row row' sent)
    (hid : e.payload.orderId = some orderId) {c : CommandEnvelope} (hc : c ∈ sent) :
    c.payload.orderId = some orderId ∧ (c.type = .reserveStock ∨ c.type = .authorizePayment ∨
      c.type = .confirmOrder ∨ c.type = .cancelOrder) := by
  have hspread : ∀ r : SagaInstanceRow, (r.context.spread e.payload).orderId = some orderId :=
    fun r => Payload.spread_orderId_of_some hid
  cases h with
  | nothing => cases hc
  | resaved => cases hc
  | started =>
    rw [List.mem_singleton.mp hc]
    exact ⟨rfl, .inl rfl⟩
  | advanced =>
    rw [List.mem_singleton.mp hc]
    exact ⟨hspread _, .inr (.inl rfl)⟩
  | completed =>
    rw [(mem_sends hc).2]
    exact ⟨hspread _, .inr (.inr (.inl rfl))⟩
  | cancelled =>
    rw [(mem_sends hc).2]
    exact ⟨hspread _, .inr (.inr (.inr rfl))⟩

/-- No reaction publishes `ReleaseInventory`. -/
theorem Reaction.no_release (h : Reaction published e orderId st row row' sent)
    (hid : e.payload.orderId = some orderId) : ∀ c ∈ sent, c.type ≠ .releaseInventory := by
  intro c hc htype
  have := (h.sent_cases hid hc).2
  simp [htype] at this

end Reaction

/-! ## Runs -/

/-- The delivery moved the order's saga to its next step. -/
def Advanced (s : Shared) (d : Delivery) (orderId : Uuid) : Prop :=
  ∃ row row', sagaRow s orderId = some row ∧ sagaRow (handle s d) orderId = some row' ∧
    row'.currentStepIndex = row.currentStepIndex + 1

/-- In the run `ds` the order's saga accepted (advanced on) the event `e`,
an InventoryReserved. -/
def AcceptedReservation (ds : List Delivery) (orderId : Uuid) (e : EventEnvelope) : Prop :=
  ∃ pre d, pre ++ [d] <+: ds ∧ d.envelope = e ∧ e.type = .inventoryReserved ∧
    e.payload.orderId = some orderId ∧ Advanced (after pre) d orderId

/-- What happened in a run one delivery longer happened before or with that delivery. -/
theorem exists_prefix_snoc {P : List Delivery → Delivery → Prop} {ds : List Delivery}
    {d : Delivery} :
    (∃ pre d', pre ++ [d'] <+: ds ++ [d] ∧ P pre d') ↔
      (∃ pre d', pre ++ [d'] <+: ds ∧ P pre d') ∨ P ds d := by
  constructor
  · rintro ⟨pre, d', hprefix, h⟩
    rcases List.prefix_concat_iff.mp hprefix with heq | hprefix
    · obtain ⟨rfl, hd⟩ := List.append_inj' heq rfl
      cases hd
      exact .inr h
    · exact .inl ⟨pre, d', hprefix, h⟩
  · rintro (⟨pre, d', hprefix, h⟩ | h)
    · exact ⟨pre, d', hprefix.trans (List.prefix_append ds [d]), h⟩
    · exact ⟨ds, d, List.prefix_refl _, h⟩

theorem acceptedReservation_snoc {ds : List Delivery} {d : Delivery} {orderId : Uuid}
    {e : EventEnvelope} :
    AcceptedReservation (ds ++ [d]) orderId e ↔ AcceptedReservation ds orderId e ∨
      (d.envelope = e ∧ e.type = .inventoryReserved ∧ e.payload.orderId = some orderId ∧
        Advanced (after ds) d orderId) :=
  exists_prefix_snoc

/-- What holds after every run. -/
structure RunInv (ds : List Delivery) : Prop where
  context : ∀ o row, sagaRow (after ds) o = some row → row.context.orderId = some o
  charging : ∀ o row, sagaRow (after ds) o = some row → row.currentStepIndex ≠ 0 →
    row.currentStepIndex = 1 ∧ o ≠ "" ∧ ∃ e, AcceptedReservation ds o e
  accepted : ∀ o e, AcceptedReservation ds o e →
    ∃ row, sagaRow (after ds) o = some row ∧ row.currentStepIndex = 1
  noRelease : ∀ c ∈ commandsOf (after ds), c.type ≠ .releaseInventory

theorem RunInv.nil : RunInv [] where
  context := by intro o row h; cases h
  charging := by intro o row h; cases h
  accepted := by
    rintro o e ⟨pre, d, hprefix, -⟩
    simp at hprefix
  noRelease := by intro c hc; cases hc

/-- Every delivery keeps the invariant. -/
theorem RunInv.snoc {ds : List Delivery} (inv : RunInv ds) (d : Delivery) :
    RunInv (ds ++ [d]) := by
  have hacc : ∀ {o e}, AcceptedReservation ds o e → AcceptedReservation (ds ++ [d]) o e :=
    fun h => acceptedReservation_snoc.mpr (.inl h)
  rcases handle_reaction d (after ds) with ⟨hcommands, hrows⟩ |
    ⟨id, st, sent, hid, hcommands, hothers, hreact⟩
  · refine ⟨?_, ?_, ?_, ?_⟩ <;> simp only [after_snoc, hcommands, hrows]
    · exact inv.context
    · intro o row hrow hindex
      obtain ⟨h₁, h₂, e, he⟩ := inv.charging o row hrow hindex
      exact ⟨h₁, h₂, e, hacc he⟩
    · intro o e h
      rcases acceptedReservation_snoc.mp h with h | ⟨-, -, -, row, row', hrow, hrow', hindex⟩
      · exact inv.accepted o e h
      · rw [hrows, hrow] at hrow'
        cases hrow'
        omega
    · exact inv.noRelease
  · refine ⟨?_, ?_, ?_, ?_⟩ <;> simp only [after_snoc]
    · intro o row hrow
      by_cases ho : o = id
      · subst ho
        exact hreact.context hid (inv.context o) row hrow
      · exact inv.context o row ((hothers o ho).symm.trans hrow)
    · intro o row hrow hindex
      by_cases ho : o = id
      · subst ho
        rcases hreact.index row hrow with ⟨-, h0⟩ | ⟨r, hr, heq | ⟨h0, h1, htype, hne⟩⟩
        · exact absurd h0 hindex
        · obtain ⟨h₁, h₂, e, he⟩ := inv.charging o r hr (heq ▸ hindex)
          exact ⟨heq.trans h₁, h₂, e, hacc he⟩
        · exact ⟨h1, hne, d.envelope, acceptedReservation_snoc.mpr
            (.inr ⟨rfl, htype, hid, r, row, hr, hrow, by omega⟩)⟩
      · obtain ⟨h₁, h₂, e, he⟩ := inv.charging o row ((hothers o ho).symm.trans hrow) hindex
        exact ⟨h₁, h₂, e, hacc he⟩
    · intro o e h
      rcases acceptedReservation_snoc.mp h with h | ⟨-, -, he, row, row', hrow, hrow', hindex⟩
      · obtain ⟨row, hrow, hone⟩ := inv.accepted o e h
        by_cases ho : o = id
        · subst ho
          obtain ⟨row', hrow'⟩ := Option.isSome_iff_exists.mp (hreact.isSome (by rw [hrow]; rfl))
          refine ⟨row', hrow', ?_⟩
          rcases hreact.index row' hrow' with ⟨hnone, -⟩ | ⟨r, hr, heq | ⟨h0, -⟩⟩
          · rw [hnone] at hrow; cases hrow
          · rw [hrow] at hr; cases hr; omega
          · rw [hrow] at hr; cases hr; omega
        · exact ⟨row, (hothers o ho).trans hrow, hone⟩
      · by_cases ho : o = id
        · subst ho
          refine ⟨row', hrow', ?_⟩
          rcases hreact.index row' hrow' with ⟨hnone, -⟩ | ⟨r, hr, heq | ⟨h0, h1, -⟩⟩
          · rw [hnone] at hrow; cases hrow
          · rw [hrow] at hr; cases hr; omega
          · exact h1
        · rw [hothers o ho, hrow] at hrow'
          cases hrow'
          omega
    · intro c hc
      rw [hcommands, List.mem_append] at hc
      exact hc.elim (inv.noRelease c) (hreact.no_release hid c)

theorem runInv (ds : List Delivery) : RunInv ds := by
  induction ds using List.reverseRecOn with
  | nil => exact .nil
  | append_singleton ds d ih => exact ih.snoc d

/-! ## Compensation -/

/-- Whenever a delivery publishes `CancelOrder` for an order whose
InventoryReserved event was accepted, `ReleaseInventory` for that order, with
the reservationId of the event, was published before. -/
def CompensationNeverSkipped (ds : List Delivery) : Prop :=
  ∀ pre d, pre ++ [d] <+: ds →
    ∀ sent₁ c sent₂, commandsOf (after (pre ++ [d])) = commandsOf (after pre) ++ sent₁ ++ c :: sent₂ →
      c.type = .cancelOrder →
      ∀ orderId e, c.payload.orderId = some orderId → AcceptedReservation pre orderId e →
        ∃ r ∈ commandsOf (after pre) ++ sent₁, r.type = .releaseInventory ∧
          r.payload.orderId = some orderId ∧ r.payload.reservationId = e.payload.reservationId

/-- No PaymentDeclined event cancels an open saga at its payment step: where
one is handled there, the broker refuses what it publishes. -/
def NoDeclineWhileCharging (ds : List Delivery) : Prop :=
  ∀ pre d, pre ++ [d] <+: ds → d.envelope.type = .paymentDeclined →
    ∀ orderId row, d.envelope.payload.orderId = some orderId →
      sagaRow (after pre) orderId = some row → row.currentStepIndex = 1 → row.Open →
      d.published ≠ .ok ()

/-- A `CancelOrder` that a reaction publishes comes from a failure of the
order's current step, with the broker's consent. -/
theorem Reaction.cancel {published : Except Err Unit} {e : EventEnvelope} {orderId : Uuid}
    {st : Stamps} {row row' : Option SagaInstanceRow} {sent : List CommandEnvelope}
    (h : Reaction published e orderId st row row' sent) {c : CommandEnvelope} (hc : c ∈ sent)
    (htype : c.type = .cancelOrder) :
    published = .ok () ∧ ∃ r step, row = some r ∧ r.Open ∧
      orderFulfillmentSaga.steps[r.currentStepIndex]? = some step ∧
      e.type = step.failureEvent ∧
      row' = some (cancelledRow r (r.context.spread e.payload) step.name st.time e.correlationId) ∧
      c.payload = { orderId := (r.context.spread e.payload).orderId
                    reason := some s!"Saga failed at step \"{step.name}\"" } := by
  cases h with
  | nothing => cases hc
  | resaved => cases hc
  | started => rw [List.mem_singleton.mp hc] at htype; cases htype
  | advanced => rw [List.mem_singleton.mp hc] at htype; cases htype
  | completed => rw [(mem_sends hc).2] at htype; cases htype
  | @cancelled r step hopen hstep hfail =>
    obtain ⟨hp, rfl⟩ := mem_sends hc
    exact ⟨hp, r, step, rfl, hopen, hstep, hfail, rfl, rfl⟩

theorem decisionOf_event {e : EventEnvelope} {orderId : Uuid} (htype : e.type ≠ .orderCreated)
    (hid : e.payload.orderId = some orderId) (hne : orderId ≠ "") :
    decisionOf e = some (orderId, fun row => decideEvent row e.type e.payload) := by
  have hfilter : e.payload.orderId.filter (· ≠ "") = some orderId := by
    rw [hid]
    simp [Option.filter, hne]
  unfold decisionOf
  simp only [if_neg htype, hfilter]

/-- A PaymentDeclined at the payment step publishes `CancelOrder` and nothing else. -/
theorem handle_decline {s : Shared} {d : Delivery} {orderId : Uuid} {row : SagaInstanceRow}
    (htype : d.envelope.type = .paymentDeclined) (hid : d.envelope.payload.orderId = some orderId)
    (hne : orderId ≠ "") (hrow : sagaRow s orderId = some row) (hindex : row.currentStepIndex = 1)
    (hopen : row.Open) (hp : d.published = .ok ()) :
    ∃ c, commandsOf (handle s d) = commandsOf s ++ [c] ∧ c.type = .cancelOrder ∧
      c.payload.orderId = some orderId := by
  have hdec := decisionOf_event (by rw [htype]; simp) hid hne
  have hcancel : decideEvent (some row) .paymentDeclined d.envelope.payload =
      .cancel row (row.context.spread d.envelope.payload) "AUTHORIZE_PAYMENT" := by
    unfold decideEvent
    simp [if_neg hopen, hindex]
  rcases handle_effect d s with ⟨hnone, -⟩ | ⟨id, decision, st, hdec', -, hsent, -, -⟩
  · rw [hdec] at hnone
    cases hnone
  · rw [hdec] at hdec'
    cases hdec'
    rw [hrow, htype] at hsent
    simp only [hcancel, hp, Decision.effect, sends] at hsent
    exact ⟨_, hsent, rfl, Payload.spread_orderId_of_some hid⟩

/-- **Exactly when the release is not skipped.** -/
theorem compensationNeverSkipped_iff (ds : List Delivery) :
    CompensationNeverSkipped ds ↔ NoDeclineWhileCharging ds := by
  constructor
  · intro hcomp pre d hprefix htype orderId row hid hrow hindex hopen hp
    obtain ⟨-, hne, e, hacc⟩ := (runInv pre).charging orderId row hrow (by omega)
    obtain ⟨c, hcommands, hctype, hcid⟩ := handle_decline htype hid hne hrow hindex hopen hp
    obtain ⟨r, hr, hrtype, -⟩ := hcomp pre d hprefix [] c [] (by simpa using hcommands) hctype
      orderId e hcid hacc
    rw [List.append_nil] at hr
    exact (runInv pre).noRelease r hr hrtype
  · intro hcond pre d hprefix sent₁ c sent₂ hcommands hctype orderId e hcid hacc
    exfalso
    obtain ⟨row, hrow, hindex⟩ := (runInv pre).accepted orderId e hacc
    rw [after_snoc] at hcommands
    rcases handle_reaction d (after pre) with ⟨hsame, -⟩ | ⟨id, st, sent, hid, hsent, -, hreact⟩
    · rw [hsame, List.append_assoc] at hcommands
      simpa using congrArg List.length hcommands
    · rw [hsent, List.append_assoc] at hcommands
      have hc : c ∈ sent := by
        rw [List.append_cancel_left hcommands]
        simp
      obtain ⟨hp, r, step, hr, hopen, hstep, hfail, -, hpayload⟩ := hreact.cancel hc hctype
      have hrid : some orderId = some id := by
        rw [← hcid, hpayload]
        exact Payload.spread_orderId_of_some hid
      obtain rfl := Option.some.inj hrid
      obtain rfl := Option.some.inj (hrow.symm.trans hr)
      rcases steps_cases hstep with ⟨h0, -⟩ | ⟨h1, rfl⟩
      · omega
      · exact hcond pre d hprefix hfail orderId row hid hrow h1 hopen hp

/-- A message of the checkout of the order. -/
def checkoutMessage (offset : ℕ) (topic : Topic) (type : EventType) (payload : Payload) :
    Delivery where
  record := { topic, partition := 0, offset
              value := { id := uuidOf 5, type, correlationId := "k", aggregateId := order₁, payload } }
  uuid := fun _ => uuidOf 6
  clock := fun _ => "t"

/-- One line ordered, and its stock reserved. -/
def reservedCheckout : List Delivery :=
  [ checkoutMessage 0 .orderEvents .orderCreated
      { orderId := some order₁, customerId := some customer₁, totalCents := some 500
        items := some [{ sku := "A", qty := 1, unitPriceCents := 500 }] },
    checkoutMessage 1 .inventoryEvents .inventoryReserved
      { orderId := some order₁, reservationId := some reservation₁
        lines := some [{ sku := "A", qty := 1 }] } ]

/-- The card declined. -/
def declinedPayment : Delivery :=
  checkoutMessage 2 .paymentEvents .paymentDeclined
    { orderId := some order₁, paymentId := some payment₁, declineCode := some "generic_decline"
      reason := some "declined" }

/-- After them only ReserveStock, AuthorizePayment and CancelOrder have been
published: the stock stays reserved. -/
theorem compensation_skipped : ¬ ∀ ds, CompensationNeverSkipped ds := by
  intro h
  have hcommands : commandsOf (after (reservedCheckout ++ [declinedPayment])) =
      commandsOf (after reservedCheckout) ++ [] ++
        [{ id := uuidOf 6, type := .cancelOrder, version := 1, correlationId := "k", issuedAt := "t"
           payload := { orderId := some order₁
                        reason := some "Saga failed at step \"AUTHORIZE_PAYMENT\"" } }] := by
    decide +kernel
  have hbefore : (sagaRow (after (reservedCheckout.take 1)) order₁).map (·.currentStepIndex) =
      some 0 := by decide +kernel
  have hafter : (sagaRow (handle (after (reservedCheckout.take 1)) reservedCheckout[1]) order₁).map
      (·.currentStepIndex) = some 1 := by decide +kernel
  obtain ⟨row, hrow, hindex⟩ := Option.map_eq_some_iff.mp hbefore
  obtain ⟨row', hrow', hindex'⟩ := Option.map_eq_some_iff.mp hafter
  have haccepted : AcceptedReservation reservedCheckout order₁ reservedCheckout[1].envelope :=
    ⟨reservedCheckout.take 1, reservedCheckout[1], List.prefix_refl _, rfl, rfl, rfl, row, row',
      hrow, hrow', by omega⟩
  obtain ⟨r, hr, htype, -⟩ := h (reservedCheckout ++ [declinedPayment]) reservedCheckout
    declinedPayment (List.prefix_refl _) [] _ [] hcommands rfl order₁ _ rfl haccepted
  rw [List.append_nil] at hr
  exact (runInv reservedCheckout).noRelease r hr htype

end Saganova
