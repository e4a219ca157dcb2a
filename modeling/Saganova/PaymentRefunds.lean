import Saganova.ServiceConsistency

/-!
# Refunds

Commands handled by the payment service one after another.
`RefundPaymentHandler` calls the gateway before it looks at the status: every
delivery that finds a pspReference calls it, also when the payment is REFUNDED
(`refund_repeated`).  The provider is called at most once, and only for an
AUTHORIZED payment, exactly where one delivery at most finds a pspReference and
finds it on an AUTHORIZED payment (`refundedOnce_iff`).
-/

namespace Saganova

open Concurrency

/-! ## Runs of the payment service -/

section Run

variable (answer : ℕ → (a : Act) → Act.Reply a)

/-- The service handles one command to its end. -/
def handlePayment (s : Shared) (r : Record CommandEnvelope) : Shared :=
  (Proc.run answer (.command .payment r) (code (.command .payment r)) s).2

def handlePayments (s : Shared) (rs : List (Record CommandEnvelope)) : Shared :=
  rs.foldl (handlePayment answer) s

end Run

/-- The command that a record of RefundPayment carries. -/
structure IsRefundPayment (e : CommandEnvelope) (command : RefundPaymentCommand) : Prop where
  type : e.type = .refundPayment
  orderId : e.payload.orderId = some command.orderId
  paymentId : e.payload.paymentId = some command.paymentId
  amountCents : e.payload.amountCents = some command.amountCents
  correlationId : e.correlationId = command.correlationId

/-- A RefundPayment for the payment `p`. -/
def IsRefundOf (p : Uuid) (r : Record CommandEnvelope) : Prop :=
  ∃ command, IsRefundPayment r.value command ∧ command.paymentId = p

/-- A call of the gateway's `refund` for the payment. -/
def isRefundCall (p : Uuid) : Event Row Act.Reply Task → Bool
  | .acted (.command .payment r) (.refund _ _ _) _ => r.value.payload.paymentId = some p
  | _ => false

def refundCalls (p : Uuid) (s : Shared) : ℕ := s.trace.countP (isRefundCall p)

def storedPayment (db : Db) (p : Uuid) : Option PaymentAggregate :=
  hydrateFrom .payment p (loadStream .payment db p)

def paymentStatus (db : Db) (p : Uuid) : Option PaymentStatus :=
  (storedPayment db p).map (·.state.status)

/-- The payment has a reference to refund against; the empty string is none. -/
def HasPspReference (db : Db) (p : Uuid) : Prop :=
  ∃ a, storedPayment db p = some a ∧ a.state.pspReference.filter (· ≠ "") ≠ none

/-! ## What a delivery calls -/

def IsRefundAct : Act → Prop
  | .refund _ _ _ => True
  | _ => False

section Calls

variable {answer : ℕ → (a : Act) → Act.Reply a} {r : Record CommandEnvelope} {p : Uuid} {s : Shared}

theorem refundCalls_of_avoids {α : Type} {code : Handler α} (h : code.Avoids IsRefundAct)
    (t : Task) : refundCalls p (code.run answer t s).2 = refundCalls p s := by
  refine h.countP_run (fun _ => rfl) (fun a r ha => ?_) answer s
  cases a with
  | refund _ _ _ => exact absurd trivial ha
  | _ => cases t <;> try rfl
         rename_i svc _
         cases svc <;> rfl

theorem field_avoids {α β : Type} (o : Option α) {f : α → Handler β}
    (h : ∀ a, o = some a → (f a).Avoids IsRefundAct) : (field o >>= f).Avoids IsRefundAct := by
  cases o with
  | none => trivial
  | some a => exact h a rfl

theorem save_avoids (svc : Service) (aggregate : svc.Aggregate) (correlationId : String) :
    (save svc aggregate correlationId).Avoids IsRefundAct := by
  unfold save
  split
  · trivial
  · rw [randomUUIDs_bind]
    refine ⟨id, fun ids => Proc.Avoids.bind ?_ fun _ => Proc.avoids_pure _⟩
    exact (Proc.avoids_transaction _).tryCatch fun _ => Proc.avoids_throw _

theorem commitOffsets_avoids (topic : Topic) (partition offset : ℕ) :
    (commitOffsets topic partition offset).Avoids IsRefundAct :=
  ⟨id, fun r => Proc.avoids_ofExcept r⟩

theorem authorizePayment_avoids (command : AuthorizePaymentCommand) :
    (AuthorizePaymentHandler.execute command).Avoids IsRefundAct := by
  unfold AuthorizePaymentHandler.execute PaymentProjectionRepository.findByOrderId
  rw [Proc.select_bind]
  intro db
  dsimp only
  split
  · trivial
  · simp only [randomUUID_bind, PaymentGateway.authorize_bind, now_bind]
    refine ⟨id, fun _ => ⟨id, fun reply => ?_⟩⟩
    refine Proc.Avoids.bind (Proc.avoids_ofExcept reply.answer) fun _ => ⟨id, fun _ => ?_⟩
    exact Proc.Avoids.bind (save_avoids _ _ _) fun _ => Proc.avoids_pure _

/-- A refund without a reference ends before its call; one with a reference
calls, and not again. -/
theorem refundCalls_execute (command : RefundPaymentCommand) (hp : command.paymentId = p)
    (hr : r.value.payload.paymentId = some p) [Decidable (HasPspReference s.db p)] :
    refundCalls p (Proc.run answer (.command .payment r) (RefundPaymentHandler.execute command) s).2 =
      refundCalls p s + if HasPspReference s.db p then 1 else 0 := by
  subst hp
  unfold RefundPaymentHandler.execute PaymentEventStoreRepository.loadAggregate
    Saganova.loadAggregate
  rw [Proc.select_bind, Proc.run_read]
  cases hload : hydrateFrom .payment command.paymentId (loadStream .payment s.db command.paymentId) with
  | none =>
    have hnot : ¬ HasPspReference s.db command.paymentId := by
      rintro ⟨a, ha, -⟩
      cases hload.symm.trans ha
    rw [if_neg hnot]
    rfl
  | some a =>
    cases hpsp : a.state.pspReference.filter (· ≠ "") with
    | none =>
      have hnot : ¬ HasPspReference s.db command.paymentId := by
        rintro ⟨a', ha, hne⟩
        cases hload.symm.trans ha
        exact hne hpsp
      simp only [hpsp, if_neg hnot]
      rfl
    | some psp =>
      have hhas : HasPspReference s.db command.paymentId := ⟨a, hload, by rw [hpsp]; simp⟩
      simp only [hpsp, if_pos hhas]
      show refundCalls _ (Proc.run answer (.command .payment r)
        (.act (.refund psp command.amountCents (some "Saga compensation")) _) s).2 = _
      rw [Proc.run_act]
      refine (refundCalls_of_avoids ?_ _).trans ?_
      · refine Proc.Avoids.bind (Proc.Avoids.tryCatch (Proc.Avoids.bind (Proc.avoids_ofExcept _)
          fun _ => ?_) fun e => ?_) fun refunded => ?_
        · rw [now_bind]
          exact ⟨id, fun _ => (Proc.avoids_ofExcept _).bind fun _ => Proc.avoids_pure _⟩
        · cases e <;> trivial
        · cases refunded with
          | none => trivial
          | some a' => exact Proc.Avoids.bind (save_avoids _ _ _) fun _ => Proc.avoids_pure _
      · unfold refundCalls
        rw [Shared.acted_trace, List.countP_cons, isRefundCall, hr]
        simp

/-- A command that is not a refund calls no refund. -/
theorem dispatch_avoids {e : CommandEnvelope} (h : ¬ ∃ command, IsRefundPayment e command) :
    (PaymentKafkaConsumer.dispatch e).Avoids IsRefundAct := by
  unfold PaymentKafkaConsumer.dispatch
  simp only
  split
  · exact field_avoids _ fun _ _ => field_avoids _ fun _ _ => field_avoids _ fun _ _ =>
      authorizePayment_avoids _
  · rename_i htype
    exact field_avoids _ fun orderId ho => field_avoids _ fun paymentId hp =>
      field_avoids _ fun amountCents hamount =>
        absurd ⟨⟨orderId, paymentId, amountCents, e.correlationId⟩, htype, ho, hp, hamount, rfl⟩ h
  · trivial

theorem dispatch_refund {e : CommandEnvelope} {command : RefundPaymentCommand}
    (h : IsRefundPayment e command) :
    PaymentKafkaConsumer.dispatch e = RefundPaymentHandler.execute command := by
  unfold PaymentKafkaConsumer.dispatch
  simp only [h.type, h.orderId, h.paymentId, h.amountCents, h.correlationId]
  rfl

theorem IsRefundOf.paymentId (h : IsRefundOf p r) : r.value.payload.paymentId = some p := by
  obtain ⟨command, hcommand, rfl⟩ := h
  exact hcommand.paymentId

/-- **What a delivery calls**: `refund` once, where it is a RefundPayment that
finds the payment with a reference. -/
theorem refundCalls_handle [Decidable (IsRefundOf p r ∧ HasPspReference s.db p)] :
    refundCalls p (handlePayment answer s r) =
      refundCalls p s + if IsRefundOf p r ∧ HasPspReference s.db p then 1 else 0 := by
  have hcommit : refundCalls p (handlePayment answer s r) = refundCalls p (Proc.run answer
      (.command .payment r) (PaymentKafkaConsumer.dispatch r.value) s).2 := by
    have hcode : handlePayment answer s r = (Proc.run answer (.command .payment r)
        (PaymentKafkaConsumer.dispatch r.value >>= fun _ =>
          commitOffsets r.topic r.partition (r.offset + 1)) s).2 := rfl
    rw [hcode, Proc.run_bind]
    split
    · rename_i hrun
      rw [hrun]
      exact refundCalls_of_avoids (commitOffsets_avoids _ _ _) _
    · rename_i hrun
      rw [hrun]
  rw [hcommit]
  by_cases hrefund : ∃ command, IsRefundPayment r.value command
  · obtain ⟨command, hcommand⟩ := hrefund
    rw [dispatch_refund hcommand]
    by_cases hp : r.value.payload.paymentId = some p
    · have hcommand_p : command.paymentId = p :=
        Option.some.inj (hcommand.paymentId.symm.trans hp)
      have hof : IsRefundOf p r := ⟨command, hcommand, hcommand_p⟩
      have := Classical.dec (HasPspReference s.db p)
      rw [refundCalls_execute command hcommand_p hp]
      simp only [hof, true_and]
    · -- the calls are for another payment
      rw [if_neg fun h => hp h.1.paymentId, add_zero]
      refine (Proc.avoids_nothing _).countP_run (fun _ => rfl) (fun a res _ => ?_) answer s
      cases a with
      | refund _ _ _ => simpa [isRefundCall] using hp
      | _ => rfl
  · rw [if_neg fun h => hrefund (h.1.imp fun _ hc => hc.1), add_zero]
    exact refundCalls_of_avoids (dispatch_avoids hrefund) _

end Calls

/-! ## At most one call -/

section Once

variable (answer : ℕ → (a : Act) → Act.Reply a) (db : Db) (p : Uuid)

/-- After the commands `rs`, one after another. -/
def afterPayments (rs : List (Record CommandEnvelope)) : Shared :=
  handlePayments answer ⟨db, []⟩ rs

/-- The provider is called at most once in total, and by no delivery that finds
the payment in another status than AUTHORIZED. -/
structure RefundedOnce (rs : List (Record CommandEnvelope)) : Prop where
  once : refundCalls p (afterPayments answer db rs) ≤ 1
  authorized : ∀ pre r post, rs = pre ++ r :: post → IsRefundOf p r →
    paymentStatus (afterPayments answer db pre).db p ≠ some .authorized →
    refundCalls p (afterPayments answer db (pre ++ [r])) =
      refundCalls p (afterPayments answer db pre)

/-- `r`, delivered after `pre`, is a RefundPayment that finds a reference. -/
def FindsReference (pre : List (Record CommandEnvelope)) (r : Record CommandEnvelope) : Prop :=
  IsRefundOf p r ∧ HasPspReference (afterPayments answer db pre).db p

/-- One delivery at most finds a reference, and finds it on an AUTHORIZED payment. -/
def OneFindsReference (rs : List (Record CommandEnvelope)) : Prop :=
  ∀ pre r post, rs = pre ++ r :: post → FindsReference answer db p pre r →
    paymentStatus (afterPayments answer db pre).db p = some .authorized ∧
    ∀ pre' r' mid, pre = pre' ++ r' :: mid → ¬ FindsReference answer db p pre' r'

variable {answer db p} {rs : List (Record CommandEnvelope)}

theorem afterPayments_snoc (pre : List (Record CommandEnvelope)) (r : Record CommandEnvelope) :
    afterPayments answer db (pre ++ [r]) = handlePayment answer (afterPayments answer db pre) r := by
  simp [afterPayments, handlePayments]

theorem refundCalls_snoc_of_finds {pre : List (Record CommandEnvelope)} {r : Record CommandEnvelope}
    (h : FindsReference answer db p pre r) : refundCalls p (afterPayments answer db (pre ++ [r])) =
      refundCalls p (afterPayments answer db pre) + 1 := by
  classical
  unfold FindsReference at h
  rw [afterPayments_snoc, refundCalls_handle, if_pos h]

theorem refundCalls_snoc_of_not_finds {pre : List (Record CommandEnvelope)}
    {r : Record CommandEnvelope} (h : ¬ FindsReference answer db p pre r) :
    refundCalls p (afterPayments answer db (pre ++ [r])) =
      refundCalls p (afterPayments answer db pre) := by
  classical
  unfold FindsReference at h
  rw [afterPayments_snoc, refundCalls_handle, if_neg h, add_zero]

variable (answer db p) in
/-- Calls are never taken back. -/
theorem refundCalls_append (pre post : List (Record CommandEnvelope)) :
    refundCalls p (afterPayments answer db pre) ≤
      refundCalls p (afterPayments answer db (pre ++ post)) := by
  induction post using List.reverseRecOn with
  | nil => rw [List.append_nil]
  | append_singleton post r ih =>
    rw [← List.append_assoc]
    refine ih.trans ?_
    by_cases h : FindsReference answer db p (pre ++ post) r
    · rw [refundCalls_snoc_of_finds h]
      omega
    · rw [refundCalls_snoc_of_not_finds h]

/-- Where the provider was called, a delivery had found a reference. -/
theorem exists_finds_of_calls (h : refundCalls p (afterPayments answer db rs) ≠ 0) :
    ∃ pre r post, rs = pre ++ r :: post ∧ FindsReference answer db p pre r := by
  induction rs using List.reverseRecOn with
  | nil => exact absurd rfl h
  | append_singleton rs r ih =>
    by_cases hfinds : FindsReference answer db p rs r
    · exact ⟨rs, r, [], rfl, hfinds⟩
    · rw [refundCalls_snoc_of_not_finds hfinds] at h
      obtain ⟨pre, r', post, rfl, hpre⟩ := ih h
      exact ⟨pre, r', post ++ [r], by simp, hpre⟩

theorem OneFindsReference.calls_le (h : OneFindsReference answer db p rs)
    (pre : List (Record CommandEnvelope)) :
    ∀ post, rs = pre ++ post → refundCalls p (afterPayments answer db pre) ≤ 1 := by
  induction pre using List.reverseRecOn with
  | nil => exact fun _ _ => Nat.zero_le 1
  | append_singleton pre r ih =>
    intro post hrs
    rw [List.append_assoc, List.singleton_append] at hrs
    by_cases hfinds : FindsReference answer db p pre r
    · -- no earlier delivery found a reference, so nothing was called yet
      have hzero : refundCalls p (afterPayments answer db pre) = 0 := by
        by_contra hcalls
        obtain ⟨pre', r', mid, hpre, hfinds'⟩ := exists_finds_of_calls hcalls
        exact (h pre r post hrs hfinds).2 pre' r' mid hpre hfinds'
      rw [refundCalls_snoc_of_finds hfinds, hzero]
    · rw [refundCalls_snoc_of_not_finds hfinds]
      exact ih (r :: post) hrs

/-- **A refund reaches the provider at most once exactly where one delivery at
most finds a reference, on an AUTHORIZED payment.** -/
theorem refundedOnce_iff (answer : ℕ → (a : Act) → Act.Reply a) (db : Db) (p : Uuid)
    (rs : List (Record CommandEnvelope)) :
    RefundedOnce answer db p rs ↔ OneFindsReference answer db p rs := by
  constructor
  · intro h pre r post hrs hfinds
    refine ⟨?_, fun pre' r' mid hpre hfinds' => ?_⟩
    · by_contra hstatus
      have hsame := h.authorized pre r post hrs hfinds.1 hstatus
      rw [refundCalls_snoc_of_finds hfinds] at hsame
      omega
    · have hfirst := refundCalls_snoc_of_finds hfinds'
      have hsecond := refundCalls_snoc_of_finds hfinds
      have hpre' : pre = (pre' ++ [r']) ++ mid := by simp [hpre]
      have hmid := refundCalls_append answer db p (pre' ++ [r']) mid
      rw [← hpre'] at hmid
      have hpost := refundCalls_append answer db p (pre ++ [r]) post
      rw [List.append_assoc, List.singleton_append, ← hrs] at hpost
      have honce := h.once
      omega
  · intro h
    refine ⟨h.calls_le rs [] (by simp), fun pre r post hrs hrefund hstatus => ?_⟩
    exact refundCalls_snoc_of_not_finds fun hfinds => hstatus (h pre r post hrs hfinds).1

end Once

/-! ## A refund delivered again -/

def refundRecord (offset : ℕ) : Record CommandEnvelope :=
  commandRecord offset .refundPayment
    { orderId := some order₁, paymentId := some (uuidOf 0), amountCents := some 500 }

/-- Authorized, refunded, and the refund delivered again. -/
def refundedTwice : List (Record CommandEnvelope) :=
  [commandRecord 0 .authorizePayment
    { orderId := some order₁, customerId := some customer₁, amountCents := some 500 },
    refundRecord 1, refundRecord 1]

/-- The second delivery finds the payment REFUNDED and calls the provider again. -/
theorem refund_repeated : ¬ ∀ answer db p rs, RefundedOnce answer db p rs := by
  intro h
  have honce := (h allWell [] (uuidOf 0) refundedTwice).once
  have htwo : refundCalls (uuidOf 0) (afterPayments allWell [] refundedTwice) = 2 := by decide +kernel
  rw [htwo] at honce
  omega

end Saganova
