import Saganova.Concurrency.Executions
import Saganova.PaymentService
import Saganova.SaveAndLoad

/-!
# What is refunded, and what is recorded

`RefundPaymentHandler` asks the gateway for the amount of the command, and the
aggregate records the amount of the payment's PAYMENT_AUTHORIZED event.  Nothing
compares the two, so they agree exactly where the command happens to ask for
what was authorized (`refundAgrees_iff`), whatever else writes meanwhile.
-/

namespace Saganova

open Concurrency

/-- A handler's execution: what it did, step by step. -/
abbrev HandlerSteps := List (Did Row Err Act.Reply)

/-- The payment's PAYMENT_AUTHORIZED event; the latest, if there are several. -/
def LastAuthorization (history : List (StoredEvent PaymentEvent)) (p : PaymentAuthorizedPayload) : Prop :=
  ∃ before e after, history = before ++ e :: after ∧ e.event = .paymentAuthorized p ∧
    ∀ e' ∈ after, e'.event.type ≠ .paymentAuthorized

/-- The execution appends a PAYMENT_REFUNDED event to the stream of the payment. -/
def AppendsRefund (did : HandlerSteps) (paymentId : Uuid) (p : PaymentRefundedPayload) : Prop :=
  ∃ db writes k r, .committed db writes ∈ did ∧
    Store.row db (.eventStore .payment paymentId k) = none ∧
    Store.row (writes ++ db) (.eventStore .payment paymentId k) = some r ∧
    r.event = .paymentRefunded p

/-- The gateway was asked for the amount that is recorded, and for nothing else,
and that is no more than was authorized. -/
structure RefundAgrees (did : HandlerSteps) (authorized : PaymentAuthorizedPayload)
    (refunded : PaymentRefundedPayload) : Prop where
  asked : ∃ pspReference reason reply,
    .acted (.refund pspReference refunded.amountCents reason) reply ∈ did
  only : ∀ pspReference amountCents reason reply,
    .acted (.refund pspReference amountCents reason) reply ∈ did →
    amountCents = refunded.amountCents
  bounded : refunded.amountCents ≤ authorized.amountCents

/-! ## What is recorded -/

theorem hydrateFrom_eq_some {svc : Service} {id : String} {history : List (StoredEvent svc.Event)}
    {a : svc.Aggregate} (h : hydrateFrom svc id history = some a) :
    a = AggregateRoot.hydrate svc.when (svc.blank id) history := by
  unfold hydrateFrom at h
  split at h
  · nomatch h
  · exact (Option.some.inj h).symm

/-- A payment that replays to AUTHORIZED has the amount of its last event. -/
theorem authorized_of_status {history : List (StoredEvent PaymentEvent)} {a : PaymentAggregate}
    {paymentId : Uuid} (h : hydrateFrom .payment paymentId history = some a)
    (hstatus : a.state.status = .authorized) :
    ∃ p, LastAuthorization history p ∧ a.state.amountCents = p.amountCents := by
  obtain rfl := hydrateFrom_eq_some h
  rw [AggregateRoot.hydrate_state] at hstatus ⊢
  cases history using List.reverseRecOn with
  | nil => nomatch hstatus
  | append_singleton history e =>
    rw [List.map_append, List.foldl_append] at hstatus ⊢
    cases hevent : e.event with
    | paymentAuthorized p =>
      refine ⟨p, ⟨history, e, [], rfl, hevent, by simp⟩, ?_⟩
      rw [List.map_singleton, hevent]
      rfl
    | paymentDeclined p =>
      rw [List.map_singleton, hevent] at hstatus
      nomatch hstatus
    | paymentRefunded p =>
      rw [List.map_singleton, hevent] at hstatus
      nomatch hstatus

theorem refund_ok {a a' : PaymentAggregate} {reason : Option String} {time : Time}
    (h : PaymentAggregate.refund a reason time = .ok a') :
    a.state.status = .authorized ∧ a' = a.apply PaymentAggregate.when
      (.paymentRefunded { paymentId := a.id, orderId := a.state.orderId
                          amountCents := a.state.amountCents, reason }) time := by
  unfold PaymentAggregate.refund at h
  split at h
  · nomatch h
  · rename_i hstatus
    exact ⟨not_not.mp hstatus, (Except.ok.inj h).symm⟩

/-! ## Executions of the handler -/

variable {command : RefundPaymentCommand} {did : HandlerSteps} {q : Handler Unit}

/-- After an error nothing is done: it is passed on, or taken for a duplicate. -/
theorem does_of_error {e : Err}
    (h : (tryCatch (throw e : Handler (Option PaymentAggregate)) (fun
        | .paymentAlreadyFinalized _ _ => pure none
        | err => throw err) >>= fun
        | none => pure ()
        | some aggregate => do
          let _ ← PaymentEventStoreRepository.save aggregate command.correlationId).Does
      databaseFault did q) : did = [] := by
  cases e with
  | paymentAlreadyFinalized _ _ => exact (Proc.does_pure h).1
  | _ => exact (Proc.does_throw h).1

/-- A commit of a save is that of what is queued. -/
theorem does_save {aggregate : PaymentAggregate}
    (h : (PaymentEventStoreRepository.save aggregate command.correlationId >>= fun _ =>
      pure ()).Does databaseFault did q) {db writes : Db} (hcommit : .committed db writes ∈ did) :
    ∃ ids, (persist .payment aggregate command.correlationId ids).exec db [] = .ok ((), writes) ∧
      did = [.acted .randomUUIDs ids, .committed db writes] := by
  unfold PaymentEventStoreRepository.save Saganova.save at h
  split at h
  · obtain ⟨rfl, -⟩ := Proc.does_pure h
    cases hcommit
  · rcases Proc.does_act h with ⟨rfl, -⟩ | ⟨ids, did, rfl, hids⟩
    · cases hcommit
    replace hcommit := (List.mem_cons.mp hcommit).resolve_left (by simp)
    rcases Proc.does_tx hids with ⟨rfl, -⟩ | ⟨db', writes', did, rfl, hexec, hend⟩ |
      ⟨db', e, did, rfl, -, hend⟩
    · cases hcommit
    · obtain ⟨rfl, -⟩ := Proc.does_pure hend
      obtain heq := List.mem_singleton.mp hcommit
      cases heq
      exact ⟨ids, hexec, rfl⟩
    · obtain ⟨rfl, -⟩ := Proc.does_throw hend
      cases List.mem_singleton.mp hcommit

theorem does_refunded {r : Except Err PaymentAggregate}
    (h : (tryCatch (Proc.ofExcept r >>= fun aggregate => pure (some aggregate) :
        Handler (Option PaymentAggregate)) (fun
        | .paymentAlreadyFinalized _ _ => pure none
        | err => throw err) >>= fun
        | none => pure ()
        | some aggregate => do
          let _ ← PaymentEventStoreRepository.save aggregate command.correlationId).Does
      databaseFault did q) {db writes : Db} (hcommit : .committed db writes ∈ did) :
    ∃ aggregate ids, r = .ok aggregate ∧
      (persist .payment aggregate command.correlationId ids).exec db [] = .ok ((), writes) ∧
      did = [.acted .randomUUIDs ids, .committed db writes] := by
  cases r with
  | error e =>
    obtain rfl := does_of_error h
    cases hcommit
  | ok aggregate =>
    obtain ⟨ids, hexec, rfl⟩ := does_save h hcommit
    exact ⟨aggregate, ids, rfl, hexec, rfl⟩

/-- **An execution that commits**: it has loaded the payment, asked the gateway
for the amount of the command, and saves the refund of what it loaded. -/
theorem does_refund (h : (RefundPaymentHandler.execute command).Does databaseFault did q)
    {db writes : Db} (hcommit : .committed db writes ∈ did) :
    ∃ db₀ a pspReference result time ids a',
      hydrateFrom .payment command.paymentId (loadStream .payment db₀ command.paymentId) = some a ∧
      PaymentAggregate.refund a (some "Saga compensation: a later saga step failed") time = .ok a' ∧
      (persist .payment a' command.correlationId ids).exec db [] = .ok ((), writes) ∧
      did = [.read db₀,
        .acted (.refund pspReference command.amountCents (some "Saga compensation")) (.ok result),
        .acted .now time, .acted .randomUUIDs ids, .committed db writes] := by
  unfold RefundPaymentHandler.execute PaymentEventStoreRepository.loadAggregate
    Saganova.loadAggregate at h
  rw [Proc.select_bind] at h
  rcases Proc.does_read h with ⟨rfl, -⟩ | ⟨db₀, did, rfl, hloaded⟩
  · cases hcommit
  replace hcommit := (List.mem_cons.mp hcommit).resolve_left (by simp)
  split at hloaded
  · obtain ⟨rfl, -⟩ := Proc.does_throw hloaded
    cases hcommit
  rename_i a hload
  split at hloaded
  · obtain ⟨rfl, -⟩ := Proc.does_throw hloaded
    cases hcommit
  rename_i pspReference hpsp
  rcases Proc.does_act hloaded with ⟨rfl, -⟩ | ⟨reply, did, rfl, hreply⟩
  · cases hcommit
  replace hcommit := (List.mem_cons.mp hcommit).resolve_left (by simp)
  cases reply with
  | error e =>
    obtain rfl := does_of_error hreply
    cases hcommit
  | ok result =>
    rcases Proc.does_act hreply with ⟨rfl, -⟩ | ⟨time, did, rfl, htime⟩
    · cases hcommit
    replace hcommit := (List.mem_cons.mp hcommit).resolve_left (by simp)
    obtain ⟨a', ids, hrefund, hexec, rfl⟩ := does_refunded htime hcommit
    exact ⟨db₀, a, pspReference, result, time, ids, a', hload, hrefund, hexec, rfl⟩

/-- A refund that is saved has the amount of the payment that was loaded. -/
theorem recorded_amount {a : PaymentAggregate} {paymentId : Uuid}
    {history : List (StoredEvent PaymentEvent)} {reason : Option String} {time : Time}
    {correlationId : String} {ids : ℕ → Uuid} {db writes : Db} {k : ℕ}
    {r : EventStoreRow .payment} {refunded : PaymentRefundedPayload}
    (ha : a = AggregateRoot.hydrate PaymentAggregate.when (PaymentAggregate.blank paymentId) history)
    (hexec : (persist .payment (a.apply PaymentAggregate.when
      (.paymentRefunded { paymentId := a.id, orderId := a.state.orderId
                          amountCents := a.state.amountCents, reason }) time)
      correlationId ids).exec db [] = .ok ((), writes))
    (hfree : Store.row db (.eventStore .payment paymentId k) = none)
    (hrow : Store.row (writes ++ db) (.eventStore .payment paymentId k) = some r)
    (hevent : r.event = .paymentRefunded refunded) : refunded.amountCents = a.state.amountCents := by
  have hid : a.id = paymentId := by
    rw [ha]
    exact AggregateRoot.hydrate_id _ _ _
  have hqueued : a.uncommittedEvents = [] := by
    rw [ha]
    exact AggregateRoot.hydrate_uncommittedEvents _ _ _
  have happended := appended_of_persist (Tx.runs_of_exec hexec)
  generalize expectedVersion .payment _ = version at happended
  simp only [AggregateRoot.apply, hid, hqueued, List.nil_append] at happended
  -- the one row that is new is that of the queued event
  have hk : k = version + 0 + 1 := by
    by_contra hne
    have hsame := happended.others .payment paymentId k (by
      rintro ⟨-, -, hlt, hle⟩
      simp only [List.length_singleton] at hle
      omega)
    cases (hsame.trans hfree).symm.trans hrow
  have hstored := happended.stored 0 _ rfl
  rw [← hk, hrow] at hstored
  obtain rfl := Option.some.inj hstored
  exact (congrArg PaymentRefundedPayload.amountCents (PaymentEvent.paymentRefunded.inj hevent)).symm

/-! ## Agreement -/

/-- **The books agree with the provider exactly where the command asks for what
was authorized.** -/
theorem refundAgrees_iff (command : RefundPaymentCommand) (did : HandlerSteps) (q : Handler Unit)
    (hdoes : (RefundPaymentHandler.execute command).Does databaseFault did q) (db : Db)
    (hread : .read db ∈ did) (refunded : PaymentRefundedPayload)
    (happends : AppendsRefund did command.paymentId refunded) :
    ∃ authorized, LastAuthorization (loadStream .payment db command.paymentId) authorized ∧
      (RefundAgrees did authorized refunded ↔ command.amountCents = authorized.amountCents) := by
  obtain ⟨db₁, writes, k, r, hcommit, hfree, hrow, hevent⟩ := happends
  obtain ⟨db₀, a, pspReference, result, time, ids, a', hload, hrefund, hexec, rfl⟩ :=
    does_refund hdoes hcommit
  obtain ⟨hstatus, rfl⟩ := refund_ok hrefund
  obtain ⟨authorized, hauthorized, hamount⟩ := authorized_of_status hload hstatus
  obtain rfl : db = db₀ := by simpa using hread
  have hrecorded : refunded.amountCents = authorized.amountCents := by
    rw [← hamount]
    exact recorded_amount (hydrateFrom_eq_some hload) hexec hfree hrow hevent
  refine ⟨authorized, hauthorized, fun hagrees => ?_, fun heq => ⟨?_, ?_, hrecorded.le⟩⟩
  · have hasked := hagrees.only pspReference command.amountCents (some "Saga compensation")
      (.ok result) (by simp)
    exact hasked.trans hrecorded
  · exact ⟨pspReference, some "Saga compensation", .ok result, by simp [hrecorded, heq]⟩
  · intro psp amountCents reason reply hmem
    have hcall : amountCents = command.amountCents := by
      simp only [List.mem_cons, reduceCtorEq, false_or, Did.acted.injEq, Act.refund.injEq,
        List.not_mem_nil, or_false, false_and] at hmem
      exact hmem.1.2.1
    rw [hcall, heq, hrecorded]

/-! ## A payment of 500 -/

/-- As `allWell`, with two ids for the rows of two events. -/
def twoRows (k : ℕ) : (a : Act) → Act.Reply a
  | .randomUUIDs => fun i => if i = 1 then row₁ else row₂
  | a => allWell k a

/-- What is in the database once it was authorized. -/
def authorizedDb : Db :=
  ((Service.payment.save (PaymentAggregate.authorize payment₁ order₁ customer₁ 500 "ref" "t")
    "c").run twoRows () ⟨[], []⟩).2.db

def refundOf (amountCents : Num) : RefundPaymentCommand where
  orderId := order₁
  paymentId := payment₁
  amountCents := amountCents
  correlationId := "c"

/-- A refund of it that nothing disturbs. -/
def refundExecution (amountCents : Num) : HandlerSteps :=
  (RefundPaymentHandler.execute (refundOf amountCents)).did twoRows 0 authorizedDb

def refundedPayment : PaymentRefundedPayload where
  paymentId := payment₁
  orderId := order₁
  amountCents := 500
  reason := "Saga compensation: a later saga step failed"

theorem does_refundExecution (amountCents : Num) :
    ∃ q, (RefundPaymentHandler.execute (refundOf amountCents)).Does databaseFault
      (refundExecution amountCents) q :=
  ⟨_, (Proc.does_did twoRows () _ _ ⟨authorizedDb, []⟩).1⟩

theorem appends_refundExecution (amountCents : Num) :
    AppendsRefund (refundExecution amountCents) payment₁ refundedPayment :=
  ⟨authorizedDb, _, 2, _, .tail _ (.tail _ (.tail _ (.tail _ (.head _)))), rfl, rfl, rfl⟩

theorem refundAgrees_inFull : ∃ authorized,
    LastAuthorization (loadStream .payment authorizedDb payment₁) authorized ∧
      (RefundAgrees (refundExecution 500) authorized refundedPayment ↔
        (500 : Num) = authorized.amountCents) := by
  obtain ⟨q, hdoes⟩ := does_refundExecution 500
  exact refundAgrees_iff (refundOf 500) (refundExecution 500) q hdoes authorizedDb (.head _)
    refundedPayment (appends_refundExecution 500)

/-- The gateway is asked for 700, and 500 are recorded. -/
theorem refundAgrees_fails : ¬ ∀ (command : RefundPaymentCommand) (did : HandlerSteps)
    (q : Handler Unit), 0 < command.amountCents →
    (RefundPaymentHandler.execute command).Does databaseFault did q → ∀ db, .read db ∈ did →
    ∀ refunded, AppendsRefund did command.paymentId refunded →
    ∀ authorized, LastAuthorization (loadStream .payment db command.paymentId) authorized →
      RefundAgrees did authorized refunded := by
  intro hall
  obtain ⟨q, hdoes⟩ := does_refundExecution 700
  have hagrees := hall (refundOf 700) (refundExecution 700) q (by norm_num [refundOf]) hdoes
    authorizedDb (.head _) refundedPayment (appends_refundExecution 700)
    { paymentId := payment₁, orderId := order₁, amountCents := 500, pspReference := some "ref" }
    ⟨[], _, [], rfl, rfl, nofun⟩
  have hasked : (700 : Num) = 500 := hagrees.only "ref" 700 (some "Saga compensation")
    (.ok { refundId := "refund" }) (.tail _ (.head _))
  norm_num at hasked

end Saganova
