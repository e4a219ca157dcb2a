import Saganova.Concurrency.Commits
import Saganova.OrderLinearization

/-!
# One transaction for each delivery

Whatever a task is, a message or a request or an outbox row, and however it is
cut off, it commits one transaction at most (`oneCommit_code`).  Two handlers
do more than read first: the refund asks the gateway before it saves, and a
reservation that fails is recorded in a transaction of its own, once the first
one is rolled back.
-/

namespace Saganova

open Concurrency Decision

/-! ## Command handlers -/

theorem oneTx_saveEvents (svc : Service) (agg : svc.Aggregate) (correlationId : String) :
    (save svc agg correlationId).OneTx := by
  unfold save
  split
  · trivial
  · rw [randomUUIDs_bind]
    exact fun ids => Proc.OneTx.bind (Proc.OneTx.tryCatch (Proc.oneTx_transaction _)
      fun _ => trivial) fun _ => trivial

theorem oneCommit_authorizePayment (command : AuthorizePaymentCommand) :
    (AuthorizePaymentHandler.execute command).OneCommit := by
  unfold AuthorizePaymentHandler.execute PaymentProjectionRepository.findByOrderId
  rw [Proc.select_bind]
  intro db
  dsimp only
  split
  · trivial
  · simp only [randomUUID_bind, PaymentGateway.authorize_bind]
    refine fun paymentId reply => (Proc.readOnly_ofExcept _).bind_oneCommit fun result => ?_
    rw [now_bind]
    exact fun time => Proc.OneTx.oneCommit ((oneTx_saveEvents _ _ _).bind fun _ => trivial)

theorem oneCommit_refundPayment (command : RefundPaymentCommand) :
    (RefundPaymentHandler.execute command).OneCommit := by
  unfold RefundPaymentHandler.execute PaymentEventStoreRepository.loadAggregate Saganova.loadAggregate
  rw [Proc.select_bind]
  intro db
  dsimp only
  split
  · trivial
  · split
    · trivial
    · refine Proc.ReadOnly.bind_oneCommit (Proc.ReadOnly.tryCatch ?_ fun err => ?_) fun refunded => ?_
      · rw [PaymentGateway.refund_bind]
        refine fun reply => (Proc.readOnly_ofExcept _).bind fun _ => ?_
        rw [now_bind]
        exact fun time => (Proc.readOnly_ofExcept _).bind fun _ => trivial
      · cases err <;> trivial
      · cases refunded with
        | none => trivial
        | some refunded =>
          exact Proc.OneTx.oneCommit ((oneTx_saveEvents _ _ _).bind fun _ => trivial)

/-- The failure of a reservation is saved once the reservation is rolled back. -/
theorem oneCommit_reserveStock (command : ReserveStockCommand) :
    (ReserveStockHandler.execute command).OneCommit := by
  unfold ReserveStockHandler.execute ReservationProjectionRepository.findByOrderId
  rw [Proc.select_bind]
  intro db
  dsimp only
  split
  · trivial
  · simp only [randomUUID_bind, now_bind, randomUUIDs_bind]
    refine fun reservationId time ids => Proc.oneCommit_retry _ fun err => ?_
    cases err with
    | insufficientStock sku reason =>
      unfold InventoryEventStoreRepository.save
      simp only [randomUUIDs_bind]
      refine fun time ids => Proc.OneTx.oneCommit (Proc.OneTx.bind ?_ fun _ => ?_)
      · exact (Proc.oneTx_transaction _).bind fun _ => trivial
      · trivial
    | _ => trivial

theorem oneCommit_releaseInventory (command : ReleaseInventoryCommand) :
    (ReleaseInventoryHandler.execute command).OneCommit := by
  unfold ReleaseInventoryHandler.execute InventoryEventStoreRepository.loadAggregate
    Saganova.loadAggregate
  rw [Proc.select_bind]
  intro db
  dsimp only
  split
  · trivial
  · simp only [now_bind, randomUUIDs_bind]
    refine fun time ids => Proc.oneCommit_retry _ fun err => ?_
    cases err <;> trivial

theorem oneCommit_consumer (svc : Service) (e : CommandEnvelope) : (consumer svc e).OneCommit := by
  cases svc with
  | order =>
    show (OrderKafkaConsumer.dispatch e).OneCommit
    unfold OrderKafkaConsumer.dispatch
    simp only
    split
    · exact (readOnly_field _).bind_oneCommit fun _ => (readOnly_field _).bind_oneCommit fun _ =>
        (readOnly_field _).bind_oneCommit fun _ => (oneTx_createOrder _).oneCommit
    · exact (readOnly_field _).bind_oneCommit fun _ => (readOnly_field _).bind_oneCommit fun _ =>
        (oneTx_confirmOrder _).oneCommit
    · exact (readOnly_field _).bind_oneCommit fun _ => (readOnly_field _).bind_oneCommit fun _ =>
        (oneTx_cancelOrder _).oneCommit
    · trivial
  | payment =>
    show (PaymentKafkaConsumer.dispatch e).OneCommit
    unfold PaymentKafkaConsumer.dispatch
    simp only
    split
    · exact (readOnly_field _).bind_oneCommit fun _ => (readOnly_field _).bind_oneCommit fun _ =>
        (readOnly_field _).bind_oneCommit fun _ => oneCommit_authorizePayment _
    · exact (readOnly_field _).bind_oneCommit fun _ => (readOnly_field _).bind_oneCommit fun _ =>
        (readOnly_field _).bind_oneCommit fun _ => oneCommit_refundPayment _
    · trivial
  | inventory =>
    show (InventoryKafkaConsumer.dispatch e).OneCommit
    unfold InventoryKafkaConsumer.dispatch
    simp only
    split
    · exact (readOnly_field _).bind_oneCommit fun _ => (readOnly_field _).bind_oneCommit fun _ =>
        oneCommit_reserveStock _
    · exact (readOnly_field _).bind_oneCommit fun _ => (readOnly_field _).bind_oneCommit fun _ =>
        oneCommit_releaseInventory _
    · trivial

/-! ## The orchestrator -/

theorem readOnly_publishCommand (type : CommandType) (payload : Payload) (correlationId : String) :
    (SagaCommandProducer.publish type (some payload) correlationId).ReadOnly := by
  rw [SagaCommandProducer.publish_eq]
  exact fun id issuedAt reply => Proc.readOnly_ofExcept reply

theorem oneCommit_saveRow (orderId : Uuid) (row : SagaInstanceRow) :
    (saveRow orderId row).OneCommit :=
  (Proc.oneTx_transaction _).oneCommit

theorem oneCommit_perform (orderId : Uuid) (correlationId : String) (decision : Decision) :
    (perform orderId correlationId decision).OneCommit := by
  cases decision with
  | ignore => trivial
  | fail e => trivial
  | start context =>
    exact (readOnly_publishCommand _ _ _).bind_oneCommit fun _ time => oneCommit_saveRow _ _
  | resave row => exact oneCommit_saveRow _ _
  | advance row context =>
    exact fun time => (readOnly_publishCommand _ _ _).bind_oneCommit fun _ => oneCommit_saveRow _ _
  | complete row context =>
    exact fun time => (oneCommit_saveRow _ _).bind fun _ => readOnly_publishCommand _ _ _
  | cancel row context step =>
    exact fun time => (oneCommit_saveRow _ _).bind fun _ => readOnly_publishCommand _ _ _

/-! ## Every task -/

theorem oneCommit_eachMessage {α : Type} {dispatch : α → Handler Unit} {r : Record α}
    (h : (dispatch r.value).OneCommit) : (eachMessage dispatch r).OneCommit :=
  h.bind fun _ reply => Proc.readOnly_ofExcept reply

/-- **Every task commits one transaction at most.** -/
theorem oneCommit_code (t : Task) : (code t).OneCommit := by
  cases t with
  | createOrder customerId items correlationId =>
    exact fun orderId id issuedAt reply => (Proc.readOnly_ofExcept reply).oneCommit
  | command svc r => exact oneCommit_eachMessage (oneCommit_consumer svc r.value)
  | event r =>
    refine oneCommit_eachMessage ?_
    obtain ⟨-, hpure | ⟨e, hthrow⟩⟩ | ⟨o, decision, -, hdispatch⟩ := dispatch_cases r.value
    · rw [hpure]
      trivial
    · rw [hthrow]
      trivial
    · rw [hdispatch]
      exact fun db => oneCommit_perform _ _ _
  | relay svc oid =>
    show (relayRow svc oid).OneCommit
    unfold relayRow
    rw [Proc.select_bind]
    intro db
    dsimp only
    split
    · trivial
    · exact fun reply => (Proc.readOnly_ofExcept reply).oneCommit

end Saganova
