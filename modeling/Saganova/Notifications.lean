import Saganova.ServiceConsistency

/-!
# Whom the notifications reach

`apps/notification-service` mails the customer of an ORDER_CONFIRMED,
ORDER_CANCELLED or PAYMENT_DECLINED event, by the `customerId` in its payload.
The aggregates leave that field out of all three (`customerId_eq_none`), so no
such event says whose it is, and the mail goes to an address made of `undefined`
(`customersIdentified_iff`).
-/

namespace Saganova

open Concurrency

/-! ## The notification service -/

structure CustomerContact where
  email : String
  phone : Option String := none
  deriving DecidableEq, Repr

/-- What a template makes. -/
structure EmailText where
  subject : String
  body : String
  deriving DecidableEq, Repr

structure EmailMessage extends EmailText where
  to_ : String
  deriving DecidableEq, Repr

structure SmsMessage where
  to_ : String
  body : String
  deriving DecidableEq, Repr

/-- A field in a template literal. -/
def text (value : Option String) : String := value.getD "undefined"

/-- A placeholder derived from the id, until there is a customer directory. -/
def CustomerContactResolver.resolve (customerId : Option Uuid) : CustomerContact :=
  { email := s!"{text customerId}@customers.saganova.example" }

def orderConfirmedEmail (payload : Payload) : EmailText where
  subject := s!"Your order {text payload.orderId} is confirmed"
  body := s!"Good news! Your order has been confirmed and payment {text payload.paymentId} was " ++
    "successful. We'll notify you again once it ships."

def orderCancelledEmail (payload : Payload) : EmailText where
  subject := s!"Your order {text payload.orderId} was cancelled"
  body := s!"Unfortunately your order could not be completed: {text payload.reason}. " ++
    "You have not been charged."

def paymentDeclinedSms (payload : Payload) : String :=
  s!"Saganova: your payment for order {text payload.orderId} was declined " ++
    s!"({text payload.reason}). Please update your payment method."

/-- `EmailProvider.send` and `SmsProvider.send` are given. -/
def NotificationKafkaConsumer.dispatch {m : Type → Type} [Monad m]
    (sendEmail : EmailMessage → m Unit) (sendSms : SmsMessage → m Unit)
    (envelope : EventEnvelope) : m Unit := do
  let payload := envelope.payload
  let contact := CustomerContactResolver.resolve payload.customerId
  match envelope.type with
  | .orderConfirmed => sendEmail { orderConfirmedEmail payload with to_ := contact.email }
  | .orderCancelled => sendEmail { orderCancelledEmail payload with to_ := contact.email }
  | .paymentDeclined => do
    let email := orderCancelledEmail
      { orderId := payload.orderId, customerId := payload.customerId, reason := payload.reason }
    sendEmail
      { to_ := contact.email, subject := s!"Payment issue with order {text payload.orderId}"
        body := email.body }
    -- urgent: both channels, where there is a phone number
    match contact.phone with
    | some phone => sendSms { to_ := phone, body := paymentDeclinedSms payload }
    | none => pure ()
  -- other event types are not notification-worthy
  | _ => pure ()

inductive Notification where
  | email (message : EmailMessage)
  | sms (message : SmsMessage)
  deriving DecidableEq, Repr

/-- What is sent for an event, with providers that fail at nothing. -/
def notifications (envelope : EventEnvelope) : List Notification :=
  let record : StateM (List Notification) Unit := NotificationKafkaConsumer.dispatch
    (fun message => modify (· ++ [.email message])) (fun message => modify (· ++ [.sms message]))
    envelope
  (record.run []).2

/-- The notification goes to the contact. -/
def Notification.Reaches (contact : CustomerContact) : Notification → Prop
  | .email message => message.to_ = contact.email
  | .sms message => some message.to_ = contact.phone

def EventType.CustomerFacing (type : EventType) : Prop :=
  type = .orderConfirmed ∨ type = .orderCancelled ∨ type = .paymentDeclined

/-! ## Whose an event is -/

/-- The event is about the order, or the payment, of the customer. -/
inductive CustomerOf (s : Shared) : (svc : Service) → String → EventStoreRow svc → Uuid → Prop
  | order {o : Uuid} {rows : List (EventStoreRow .order)} {r₀ r : EventStoreRow .order}
      {p : OrderCreatedPayload} : HasStream .order s.db o rows → r₀ ∈ rows →
      r₀.event = .orderCreated p → CustomerOf s .order o r p.customerId
  | payment {p : Uuid} {r : EventStoreRow .payment} {record : Record CommandEnvelope}
      {command : AuthorizePaymentCommand} {w : Db} :
      Event.committed (.command .payment record) w ∈ s.trace →
      (∃ k, Store.row w (.eventStore .payment p k) = some r) →
      IsAuthorizePayment record.value command →
      CustomerOf s .payment p r command.customerId

/-- Every customer-facing event carries the customer whose it is, and its
notifications reach that customer. -/
def CustomersIdentified (s : Shared) : Prop :=
  ∀ svc id rows r, HasStream svc s.db id rows → r ∈ rows →
    (svc.eventType r.event).CustomerFacing → ∃ customerId, CustomerOf s svc id r customerId ∧
      (svc.payload r.event).customerId = some customerId ∧
      ∀ oid envelope, relayedMessage oid (outboxRow svc id r) = .event envelope →
        ∀ note ∈ notifications envelope,
          note.Reaches (CustomerContactResolver.resolve (some customerId))

/-- No customer-facing event of a stream has a customer. -/
def CustomersMissing (s : Shared) : Prop :=
  ∀ svc id rows r, HasStream svc s.db id rows → r ∈ rows →
    (svc.eventType r.event).CustomerFacing → (svc.payload r.event).customerId = none

theorem Appends.customerId_eq_none {s : Shared} {t : Task} {svc : Service} {id : String}
    {rows : List (EventStoreRow svc)} {r : EventStoreRow svc} (h : Appends s t svc id rows r)
    (hfacing : (svc.eventType r.event).CustomerFacing) :
    (svc.payload r.event).customerId = none := by
  cases h with
  | created _ _ _ _ =>
    simp [eventRow, Service.eventType, OrderEvent.type, EventType.CustomerFacing] at hfacing
  | confirmed _ _ _ _ _ => rfl
  | cancelled _ _ _ _ _ => rfl
  | @charged r command _ _ result _ _ _ _ =>
    show (AuthorizePaymentHandler.event command id result).payload.customerId = none
    unfold AuthorizePaymentHandler.event
    split <;> rfl
  | refunded _ _ _ _ => rfl
  | reserved _ _ _ => rfl
  | failed _ _ => rfl
  | released _ _ _ _ => rfl

theorem customerId_eq_none {s : State} (h : Reach serviceSystem anything s) :
    CustomersMissing s.shared := by
  refine Protocol.invariant serviceSystem_keeps (I := CustomersMissing) ?_ ?_ h
  · rintro s ⟨hfresh, -⟩ svc id rows r hrows hr
    rw [hfresh.stream_nil hrows] at hr
    nomatch hr
  · intro t seen s s' hinv hI hstep svc id rows r hrows hr hfacing
    rcases hstep.stream_before hrows with hold | ⟨rows', r', hrows', rfl, happends⟩
    · exact hI svc id rows r hold hr hfacing
    · rcases List.mem_append.mp hr with hold | hnew
      · exact hI svc id rows' r hrows' hold hfacing
      · obtain rfl := List.mem_singleton.mp hnew
        exact happends.customerId_eq_none hfacing

/-- **No customer-facing event identifies its customer.** -/
theorem customersIdentified_iff (s : LockState) (h : LockReach serviceSystem anything s) :
    CustomersIdentified s.base.shared ↔
      ∀ svc id rows r, HasStream svc s.base.shared.db id rows → r ∈ rows →
        ¬ (svc.eventType r.event).CustomerFacing := by
  constructor
  · intro hidentified svc id rows r hrows hr hfacing
    obtain ⟨customerId, -, hsome, -⟩ := hidentified svc id rows r hrows hr hfacing
    rw [customerId_eq_none h.atomic.2 svc id rows r hrows hr hfacing] at hsome
    nomatch hsome
  · intro hnone svc id rows r hrows hr hfacing
    exact absurd hfacing (hnone svc id rows r hrows hr)

/-! ## Two runs -/

/-- The state that a list of tasks leaves, each run by itself. -/
def ran (tasks : List Task) : LockState where
  base := .idle (serviceSystem.runs allWell tasks ⟨[], []⟩)
  txns := fun _ => none

theorem reach_ran (tasks : List Task) : LockReach serviceSystem anything (ran tasks) :=
  Reach.withLocks (Reach.runs _ (.start ⟨fun _ _ => rfl, rfl⟩) (fun _ _ _ => trivial)
    fun _ _ _ _ => trivial)

/-- An event that a state holds is in the stream of its aggregate. -/
theorem mem_stream_of_row {s : LockState} (h : LockReach serviceSystem anything s) (svc : Service)
    (id : String) (k : ℕ) (type : EventType)
    (hrow : (Store.row s.base.shared.db (.eventStore svc id (k + 1))).map
      (fun r => svc.eventType r.event) = some type) :
    ∃ rows r, HasStream svc s.base.shared.db id rows ∧ r ∈ rows ∧ svc.eventType r.event = type := by
  obtain ⟨rows, oids, hrows, -, -⟩ :=
    (Protocol.sound serviceSystem_keeps h.atomic.2).inv.aggregate svc id
  obtain ⟨r, hr, htype⟩ := Option.map_eq_some_iff.mp hrow
  exact ⟨rows, r, hrows, List.mem_of_getElem? ((hrows.2 k).symm.trans hr), htype⟩

/-- The confirmation of an order does not say whose order it was. -/
theorem customersIdentified_confirmed :
    ¬ CustomersIdentified (ran confirmedCheckout).base.shared := by
  intro hidentified
  have hnone := (customersIdentified_iff _ (reach_ran _)).mp hidentified
  obtain ⟨rows, r, hrows, hr, htype⟩ := mem_stream_of_row (reach_ran confirmedCheckout) .order order₁ 1
    .orderConfirmed (by decide +kernel)
  exact hnone .order order₁ rows r hrows hr (.inl htype)

def cancelledCheckout : List Task :=
  [.command .order (commandRecord 0 .createOrder
      { orderId := some order₁, customerId := some customer₁
        items := some [{ sku := "A", qty := 1, unitPriceCents := 500 }] }),
    .command .order (commandRecord 1 .cancelOrder
      { orderId := some order₁, reason := some "INSUFFICIENT_STOCK" })]

/-- Nor does a cancellation, so its mail is not sent to the customer. -/
theorem customersIdentified_fails :
    ¬ ∀ s : LockState, LockReach serviceSystem anything s →
      CustomersIdentified s.base.shared := by
  intro hall
  have hreach := reach_ran cancelledCheckout
  obtain ⟨rows, r, hrows, hr, htype⟩ := mem_stream_of_row hreach .order order₁ 1 .orderCancelled
    (by decide +kernel)
  obtain ⟨customerId, -, hsome, -⟩ := hall _ hreach .order order₁ rows r hrows hr (.inr (.inl htype))
  rw [customerId_eq_none hreach.atomic.2 .order order₁ rows r hrows hr (.inr (.inl htype))] at hsome
  nomatch hsome

end Saganova
