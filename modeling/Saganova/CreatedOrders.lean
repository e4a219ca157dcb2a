import Saganova.CorrelationIds

/-!
# Orders that were created

A saga, and every command it publishes, is about an order that the order
service has events of (`CreatedInv`): it starts with an ORDER_CREATED event,
which is relayed from the order's stream.
-/

namespace Saganova

open Concurrency Decision

/-- The order service has events of the order. -/
def Created (s : Shared) (o : Uuid) : Prop := ∃ rows, HasStream .order s.db o rows ∧ rows ≠ []

/-- The commands of a saga name an order that was created, and a cancellation its reason. -/
structure OfSaga (s : Shared) (c : CommandEnvelope) : Prop where
  created : ∃ o, c.payload.orderId = some o ∧ Created s o
  reason : c.type = .cancelOrder → ∃ reason, c.payload.reason = some reason

/-- Sagas are of orders that were created, and so are the commands they publish. -/
structure CreatedInv (s : Shared) : Prop where
  events : ∀ topic e, Published s topic (.event e) → e.type = .orderCreated →
    ∀ o, e.payload.orderId = some o → Created s o
  rows : ∀ o row, Store.row s.db (.sagaInstance o) = some row → Created s o
  commands : ∀ topic c, Published s topic (.command c) →
    c.type ≠ .createOrder → OfSaga s c

structure CreatedJob (s : Shared) (t : Task) (seen : Db) : Prop where
  delivered : Delivered s t
  seen : ∀ o row, Store.row seen (.sagaInstance o) = some row → Created s o

section Created

variable {t : Task} {seen : Db} {s s' : Shared} {o : Uuid}

theorem Created.grow (h : Created s o) (hgrow : Grows s s') : Created s' o := by
  obtain ⟨rows, hrows, hne⟩ := h
  obtain ⟨more, hmore⟩ := hgrow.stream hrows
  exact ⟨_, hmore, by simp [hne]⟩

theorem OfSaga.grow {c : CommandEnvelope} (h : OfSaga s c) (hgrow : Grows s s') : OfSaga s' c where
  created := h.created.imp fun _ h => ⟨h.1, h.2.grow hgrow⟩
  reason := h.reason

/-- An ORDER_CREATED event is of a stream of the order service. -/
theorem created_of_outbox {svc : Service} {oid : Uuid} {row : OutboxRow} (hI : CheckoutInv s)
    (hdb : Consistent s.db) (hrow : Store.row s.db (.outbox svc oid) = some row)
    (htype : row.eventType = .orderCreated) (ho : row.payload.orderId = some o) : Created s o := by
  obtain ⟨rows, hrows, r, hr, hsame⟩ := hdb.outbox_event hrow
  rw [hsame] at htype ho
  replace htype : svc.eventType r.event = .orderCreated := htype
  replace ho : (svc.payload r.event).orderId = some o := ho
  have hrecorded := hI.streams svc _ rows hrows
  -- the first event of an order is its creation, and no other event is one
  have hfirst : ∀ {items : List OrderLineItem} {customerId id : Uuid} {r₀ : EventStoreRow .order}
      {more : List (EventStoreRow .order)}, HasStream .order s.db id (r₀ :: more) →
      r₀.event = .orderCreated { orderId := id, customerId, items
                                 totalCents := OrderAggregate.totalCents items } →
      (OrderEvent.payload r₀.event).orderId = some o → Created s o := by
    intro items customerId id r₀ more hrows hevent ho
    rw [hevent] at ho
    obtain rfl := Option.some.inj ho
    exact ⟨_, hrows, by simp⟩
  cases hrecorded with
  | nil => cases hr
  | created _ hevent =>
    obtain rfl := List.mem_singleton.mp hr
    exact hfirst hrows hevent ho
  | confirmed _ hevent _ _ hevent' =>
    obtain rfl | hr' := List.mem_cons.mp hr
    · exact hfirst hrows hevent ho
    · obtain rfl := List.mem_singleton.mp hr'
      rw [hevent'] at htype
      cases htype
  | cancelled _ hevent _ hevent' =>
    obtain rfl | hr' := List.mem_cons.mp hr
    · exact hfirst hrows hevent ho
    · obtain rfl := List.mem_singleton.mp hr'
      rw [hevent'] at htype
      cases htype
  | reserved _ _ hevent =>
    obtain rfl := List.mem_singleton.mp hr
    rw [hevent] at htype
    cases htype
  | reservationFailed _ hevent =>
    obtain rfl := List.mem_singleton.mp hr
    rw [hevent] at htype
    cases htype
  | authorized _ _ _ hevent =>
    obtain rfl := List.mem_singleton.mp hr
    rw [hevent] at htype
    cases htype
  | declined _ _ hevent =>
    obtain rfl := List.mem_singleton.mp hr
    rw [hevent] at htype
    cases htype

/-- A command is published for an order that was created, or on its row. -/
theorem ofSaga_of_decision {e : EventEnvelope} {decision : Option SagaInstanceRow → Decision}
    {found : Option SagaInstanceRow} {correlationId : String} {c : CommandEnvelope}
    (hdec : decisionOf e = some (o, decision))
    (hpublishes : (decision found).Publishes correlationId c) :
    (e.type = .orderCreated ∨ ∃ row, found = some row) ∧
      (c.type = .cancelOrder → ∃ reason, c.payload.reason = some reason) := by
  obtain ⟨-, ⟨hcreated, items, -, rfl⟩ | ⟨-, -, rfl⟩⟩ := decisionOf_cases hdec
  · cases found with
    | some row => exact hpublishes.elim
    | none =>
      obtain ⟨-, hreserve, -⟩ := hpublishes
      exact ⟨.inl hcreated, fun hcancel => by cases hcancel.symm.trans hreserve⟩
  · replace hpublishes : (decideEvent found e.type e.payload).Publishes correlationId c := hpublishes
    obtain hignore | ⟨err, hfail⟩ | ⟨row, hrow, hcases⟩ := decideEvent_cases found e.type e.payload
    · rw [hignore] at hpublishes
      exact hpublishes.elim
    · rw [hfail] at hpublishes
      exact hpublishes.elim
    refine ⟨.inr ⟨row, hrow⟩, fun hcancel => ?_⟩
    obtain hresave | ⟨-, hadvance⟩ | ⟨-, hcomplete⟩ | ⟨-, step, hcancelled⟩ := hcases
    · rw [hresave] at hpublishes
      exact hpublishes.elim
    · rw [hadvance] at hpublishes
      cases hcancel.symm.trans hpublishes.2.1
    · rw [hcomplete] at hpublishes
      cases hcancel.symm.trans hpublishes.2.1
    · rw [hcancelled] at hpublishes
      rw [hpublishes.2.2]
      exact ⟨_, rfl⟩

theorem CreatedInv.step (hC : CreatedInv s) (hI : CheckoutInv s) (hdb : Consistent s.db)
    (hjob : CreatedJob s t seen) (h : ServiceStep t seen s s') : CreatedInv s' := by
  have hgrow := h.grows hdb
  constructor
  · rintro topic e ⟨task, key, res, hmem⟩ htype o ho
    obtain hold | ⟨rfl, hallowed, -⟩ := h.new_event hmem
    · exact (hC.events topic e ⟨task, key, res, hold⟩ htype o ho).grow hgrow
    · obtain ⟨svc, oid, row, rfl, hrow, heq⟩ := MayPublish.of_event hallowed
      obtain rfl := Message.event.inj heq
      exact (created_of_outbox hI hdb hrow htype ho).grow hgrow
  · intro o row hrow
    obtain hsame | ⟨r, decision, row', rfl, hdec, hwrites, hrow'⟩ := h.saga_cases o
    · rw [hsame] at hrow
      exact (hC.rows o row hrow).grow hgrow
    · cases hseen : (Store.row seen (.sagaInstance o) : Option SagaInstanceRow) with
      | some row₀ => exact (hjob.seen o row₀ hseen).grow hgrow
      | none =>
        rw [hseen] at hwrites
        obtain ⟨ho, ⟨htype, -⟩ | ⟨-, -, rfl⟩⟩ := decisionOf_cases hdec
        · exact (hC.events _ _ hjob.delivered htype o ho).grow hgrow
        · exact hwrites.elim
  · rintro topic c ⟨task, key, res, hmem⟩ htype
    obtain hold | ⟨rfl, hallowed, -⟩ := h.new_event hmem
    · exact (hC.commands topic c ⟨task, key, res, hold⟩ htype).grow hgrow
    · obtain ⟨-, ⟨_, _, _, rfl, hcreate, -⟩ | ⟨r, orderId, decision, rfl, hdec, hpublishes⟩⟩ :=
        MayPublish.of_command hallowed
      · exact absurd hcreate htype
      · obtain ⟨hcreated, hreason⟩ := ofSaga_of_decision hdec hpublishes
        refine ⟨⟨orderId, publishes_orderId hdec hpublishes, ?_⟩, hreason⟩
        obtain hcreated | ⟨row, hfound⟩ := hcreated
        · exact (hC.events _ _ hjob.delivered hcreated orderId (decisionOf_orderId hdec)).grow hgrow
        · exact (hjob.seen orderId row hfound).grow hgrow

theorem CreatedInv.start (hdb : OnlyStocked s.db) (htrace : s.trace = []) : CreatedInv s where
  events topic e hpublished := absurd hpublished (not_published htrace topic _)
  rows o row hrow := by
    rw [hdb (.sagaInstance o) nofun] at hrow
    cases hrow
  commands topic c hpublished := absurd hpublished (not_published htrace topic _)

end Created

theorem createdInv_of_reach {S : System} {G : Guard} (hcode : S.code = code)
    (hspawn : ∀ s t, S.spawn s t → Delivered s.shared t)
    (hstart : ∀ s, S.start s → OnlyStocked s.db ∧ s.trace = []) {s : State} (h : Reach S G s) :
    CreatedInv s.shared := by
  have hkeeps : S.Keeps serviceProtocol G :=
    keepsServiceProtocol hcode fun s hs => (hstart s hs).1.fresh.consistent
  refine Protocol.invariant_of_known hkeeps (K := CheckoutInv)
    (fun s hs => checkoutInv_of_reach hcode hspawn hstart hs) (J := CreatedJob)
    (fun s t ht => ⟨hspawn s t ht, fun o row hrow => ?_⟩) (fun t seen s s' hgrow hjob =>
    ⟨hjob.delivered.grow hgrow, fun o row hrow => (hjob.seen o row hrow).grow hgrow⟩)
    (fun t seen s hC hjob => ⟨hjob.delivered, hC.rows⟩) (fun s hs => ?_)
    (fun t seen s s' hdb hI _ htook hC hstep => hC.step hI hdb htook.task hstep) h
  · rw [Store.row_nil] at hrow
    cases hrow
  · exact .start (hstart s hs).1 (hstart s hs).2

end Saganova
