import Saganova.Concurrency.Executions
import Saganova.Notifications
import Saganova.WireFormat

/-!
# Messages that block a consumer

The audit consumer skips a message that does not parse, and the notification
consumer commits past every failure of its providers, so that no message is
delivered forever.  Both miss some: `null` parses, and reading a field of it
throws in the audit consumer's insert and in the very `catch` of the
notification consumer, which parses outside of its `try` as well
(`neverBlock_iff`).
-/

namespace Saganova

open Concurrency

/-! ## Values in template literals -/

/-- A thrown value. -/
inductive Thrown where
  | error (message : String)
  /-- one whose message cannot be read or written, such as undefined -/
  | unwritable
  deriving DecidableEq, Repr

def Thrown.message : Thrown → Except String String
  | .error message => .ok message
  | .unwritable => .error "Cannot read properties of undefined (reading 'message')"

mutual

/-- `String(value)`, with the text of a number given. -/
def Json.written (numberText : Num → String) : Json → Except String String
  | .null => .ok "null"
  | .bool b => .ok (if b then "true" else "false")
  | .num n => .ok (numberText n)
  | .str s => .ok s
  | .arr elements => do
    let texts ← elementTexts numberText elements
    pure (",".intercalate texts)
  | .obj fields =>
    -- a property of the object hides the inherited method, and is no function
    if (fields.lookup "toString").isSome then
      .error "Cannot convert object to primitive value"
    else
      .ok "[object Object]"

/-- An element that is null is left empty by `join`. -/
def elementTexts (numberText : Num → String) : List Json → Except String (List String)
  | [] => .ok []
  | .null :: elements => do
    let texts ← elementTexts numberText elements
    pure ("" :: texts)
  | element :: elements => do
    let text ← element.written numberText
    let texts ← elementTexts numberText elements
    pure (text :: texts)

end

/-- A property of a value that may be undefined. -/
def Json.read (name : String) : Option Json → Except String (Option Json)
  | none => .error s!"Cannot read properties of undefined (reading '{name}')"
  | some .null => .error s!"Cannot read properties of null (reading '{name}')"
  | some (.obj fields) => .ok (fields.lookup name)
  | some _ => .ok none

/-- The runtime with the text of numbers. -/
structure ConsumerRuntime extends JsonRuntime where
  numberText : Num → String

namespace ConsumerRuntime

variable (runtime : ConsumerRuntime)

def decode (value : ByteArray) : Option Json := JsonCodec.decode runtime.toJsonRuntime value

def written : Option Json → Except String String
  | none => .ok "undefined"
  | some value => value.written runtime.numberText

/-- The text of a field. -/
def field (name : String) (value : Option Json) : Except String String := do
  runtime.written (← Json.read name value)

end ConsumerRuntime

/-! ## The notification consumer -/

inductive NotificationAct where
  | resolve (customerId : Option Json)
  | sendEmail (message : EmailMessage)
  | sendSms (message : SmsMessage)
  | log (line : String)
  | commitOffsets (partition : TopicPartition) (offset : ℕ)

abbrev NotificationAct.Reply : NotificationAct → Type
  | .resolve _ => Except Thrown CustomerContact
  | .sendEmail _ => Except Thrown Unit
  | .sendSms _ => Except Thrown Unit
  | .log _ => Unit
  | .commitOffsets _ _ => Except Thrown Unit

/-- The service has no database. -/
abbrev NotificationProc := Proc (fun _ : Empty => Unit) Thrown NotificationAct.Reply

namespace NotificationKafkaConsumer

/-- Failing to evaluate an expression throws a `TypeError`. -/
def evaluated {α : Type} : Except String α → NotificationProc α
  | .ok a => pure a
  | .error message => throw (.error message)

@[simp] theorem evaluated_ok {α : Type} (a : α) : evaluated (.ok a) = pure a := rfl

section Dispatch

variable (runtime : ConsumerRuntime) (resolve : Option Json → NotificationProc CustomerContact)
  (sendEmail : EmailMessage → NotificationProc Unit) (sendSms : SmsMessage → NotificationProc Unit)

def dispatchConfirmed (payload : Option Json) : NotificationProc Unit := do
  let contact ← resolve (← evaluated (Json.read "customerId" payload))
  let orderId ← evaluated (runtime.field "orderId" payload)
  let paymentId ← evaluated (runtime.field "paymentId" payload)
  let email := orderConfirmedEmail { orderId := some orderId, paymentId := some paymentId }
  sendEmail { email with to_ := contact.email }

def dispatchCancelled (payload : Option Json) : NotificationProc Unit := do
  let contact ← resolve (← evaluated (Json.read "customerId" payload))
  let orderId ← evaluated (runtime.field "orderId" payload)
  let reason ← evaluated (runtime.field "reason" payload)
  let email := orderCancelledEmail { orderId := some orderId, reason := some reason }
  sendEmail { email with to_ := contact.email }

def dispatchDeclined (payload : Option Json) : NotificationProc Unit := do
  let contact ← resolve (← evaluated (Json.read "customerId" payload))
  let orderId ← evaluated (runtime.field "orderId" payload)
  let reason ← evaluated (runtime.field "reason" payload)
  let texts : Payload := { orderId := some orderId, reason := some reason }
  sendEmail
    { to_ := contact.email, subject := s!"Payment issue with order {orderId}"
      body := (orderCancelledEmail texts).body }
  match contact.phone with
  | none => pure ()
  | some phone =>
    if phone = "" then pure () else sendSms { to_ := phone, body := paymentDeclinedSms texts }

/-- `dispatch` of what was parsed, whatever that is, with these providers. -/
def dispatchWith (envelope : Json) : NotificationProc Unit := do
  match ← evaluated (Json.read "type" (some envelope)) with
  | some (.str "order.confirmed.v1") =>
    let payload ← evaluated (Json.read "payload" (some envelope))
    dispatchConfirmed runtime resolve sendEmail payload
  | some (.str "order.cancelled.v1") =>
    let payload ← evaluated (Json.read "payload" (some envelope))
    dispatchCancelled runtime resolve sendEmail payload
  | some (.str "payment.declined.v1") =>
    let payload ← evaluated (Json.read "payload" (some envelope))
    dispatchDeclined runtime resolve sendEmail sendSms payload
  | _ => pure ()

variable {resolve} {sendEmail} {sendSms}

/-- What sequences keep and evaluations and providers have, the dispatch has. -/
theorem dispatchWith_has {P : (α : Type) → NotificationProc α → Prop}
    (hbind : ∀ {α β : Type} (p : NotificationProc α) (f : α → NotificationProc β), P α p →
      (∀ a, P β (f a)) → P β (p >>= f))
    (hpure : P Unit (pure ())) (hevaluated : ∀ {α : Type} (r : Except String α), P α (evaluated r))
    (hresolve : ∀ customerId, P _ (resolve customerId))
    (hemail : ∀ message, P Unit (sendEmail message)) (hsms : ∀ message, P Unit (sendSms message))
    (envelope : Json) :
    P Unit (dispatchWith runtime resolve sendEmail sendSms envelope) := by
  unfold dispatchWith
  refine hbind _ _ (hevaluated _) fun type => ?_
  split
  · refine hbind _ _ (hevaluated _) fun payload => hbind _ _ (hevaluated _) fun customerId => ?_
    refine hbind _ _ (hresolve _) fun contact => hbind _ _ (hevaluated _) fun orderId => ?_
    exact hbind _ _ (hevaluated _) fun paymentId => hemail _
  · refine hbind _ _ (hevaluated _) fun payload => hbind _ _ (hevaluated _) fun customerId => ?_
    refine hbind _ _ (hresolve _) fun contact => hbind _ _ (hevaluated _) fun orderId => ?_
    exact hbind _ _ (hevaluated _) fun reason => hemail _
  · refine hbind _ _ (hevaluated _) fun payload => hbind _ _ (hevaluated _) fun customerId => ?_
    refine hbind _ _ (hresolve _) fun contact => hbind _ _ (hevaluated _) fun orderId => ?_
    refine hbind _ _ (hevaluated _) fun reason => hbind _ _ (hemail _) fun _ => ?_
    split
    · exact hpure
    · split
      · exact hpure
      · exact hsms _
  · exact hpure

end Dispatch

/-! ### What the relay sends -/

section Relayed

variable {runtime : ConsumerRuntime}

/-- `CustomerContactResolver.resolve` of a value of any kind. -/
def placeholder (runtime : ConsumerRuntime) (customerId : Option Json) :
    NotificationProc CustomerContact := do
  let id ← evaluated (runtime.written customerId)
  pure (CustomerContactResolver.resolve (some id))

theorem read_object {fields : List (String × Option Json)} {name : String}
    (hnodup : (fields.map Prod.fst).Nodup) :
    Json.read name (some (Json.object fields)) = .ok (fields.lookup name).join := by
  refine congrArg Except.ok ?_
  induction fields with
  | nil => rfl
  | cons field fields ih =>
    obtain ⟨n, value⟩ := field
    obtain ⟨hn, hnodup⟩ := List.nodup_cons.mp hnodup
    have hrest := ih hnodup
    rw [List.lookup_cons]
    by_cases hname : name = n
    · subst hname
      cases value with
      | some value => simp
      | none =>
        have hnone : fields.lookup name = none := by
          rw [List.lookup_eq_none_iff]
          intro field hfield
          have hne : name ≠ field.1 := by
            rintro rfl
            exact hn (List.mem_map.mpr ⟨field, hfield, rfl⟩)
          simpa using hne
        rw [hnone] at hrest
        simpa using hrest
    · have hne : (name == n) = false := by simpa using hname
      cases value with
      | none => simpa [hne] using hrest
      | some value => simpa [hne, List.lookup_cons] using hrest

theorem read_payload (p : Payload) :
    Json.read "customerId" (some p.json) = .ok (p.customerId.map .str) ∧
      Json.read "orderId" (some p.json) = .ok (p.orderId.map .str) ∧
      Json.read "paymentId" (some p.json) = .ok (p.paymentId.map .str) ∧
      Json.read "reason" (some p.json) = .ok (p.reason.map .str) := by
  refine ⟨?_, ?_, ?_, ?_⟩ <;> exact read_object (by simp)

theorem field_of_read {name : String} {value : Option Json} {string : Option String}
    (h : Json.read name value = .ok (string.map .str)) :
    runtime.field name value = .ok (text string) := by
  unfold ConsumerRuntime.field
  rw [h]
  cases string <;> rfl

/-- On an event of the contracts it is the dispatch of the typed envelope. -/
theorem dispatchWith_json (sendEmail : EmailMessage → NotificationProc Unit)
    (sendSms : SmsMessage → NotificationProc Unit) (e : EventEnvelope)
    (htype : ∀ type, e.type ≠ .other type) :
    dispatchWith runtime (placeholder runtime) sendEmail sendSms e.json =
      dispatch sendEmail sendSms e := by
  obtain ⟨hcustomerId, horderId, hpaymentId, hreason⟩ := read_payload e.payload
  have hcontact : placeholder runtime (e.payload.customerId.map .str) =
      pure (CustomerContactResolver.resolve e.payload.customerId) := by
    cases e.payload.customerId <;> rfl
  have htypeRead : Json.read "type" (some e.json) = .ok (some (.str e.type.text)) := rfl
  have hpayload : Json.read "payload" (some e.json) = .ok (some e.payload.json) := rfl
  unfold dispatchWith dispatch
  rw [htypeRead, hpayload]
  cases htype' : e.type with
  | other type => exact absurd htype' (htype type)
  | orderConfirmed =>
    simp [EventType.text, dispatchConfirmed, hcustomerId, hcontact, field_of_read horderId,
      field_of_read hpaymentId]
    rfl
  | orderCancelled =>
    simp [EventType.text, dispatchCancelled, hcustomerId, hcontact, field_of_read horderId,
      field_of_read hreason]
    rfl
  | paymentDeclined =>
    simp [EventType.text, dispatchDeclined, hcustomerId, hcontact, field_of_read horderId,
      field_of_read hreason]
    rfl
  | _ => rfl

end Relayed

/-! ### One message -/

/-- The line that is logged of a failure. -/
def failureLine (runtime : ConsumerRuntime) (envelope : Json) (err : Thrown) :
    Except String String := do
  let type ← runtime.field "type" (some envelope)
  let id ← runtime.field "id" (some envelope)
  let message ← err.message
  pure s!"Failed to send notification for {type} (id={id}): {message}"

def answered {α : Type} (reply : Except Thrown α) : NotificationProc α := Proc.ofExcept reply

def dispatchParsed (runtime : ConsumerRuntime) (envelope : Json) : NotificationProc Unit :=
  dispatchWith runtime (fun customerId => Proc.act (.resolve customerId) answered)
    (fun message => Proc.act (.sendEmail message) answered)
    (fun message => Proc.act (.sendSms message) answered) envelope

def eachMessage (runtime : ConsumerRuntime) (partition : TopicPartition) (offset : ℕ) :
    Option ByteArray → NotificationProc Unit
  | none => pure ()
  | some value =>
    match runtime.decode value with
    -- JSON.parse is called outside of the try
    | none => throw (.error "Unexpected token")
    | some envelope => do
      tryCatch (dispatchParsed runtime envelope) fun err => do
        let line ← evaluated (failureLine runtime envelope err)
        Proc.perform NotificationAct.Reply (.log line)
      Proc.act (.commitOffsets partition (offset + 1)) answered

end NotificationKafkaConsumer

/-! ## Failures of a dispatch -/

/-- The event is one that is notified of. -/
def Notable (envelope : Json) : Prop :=
  ∃ type : EventType, type.CustomerFacing ∧
    Json.read "type" (some envelope) = .ok (some (.str type.text))

/-- It has no payload that a field could be read of. -/
def LacksPayload (envelope : Json) : Prop :=
  Json.read "payload" (some envelope) = .ok none ∨
    Json.read "payload" (some envelope) = .ok (some .null)

/-- The envelope's id can be written into a line. -/
def HasWritableId (runtime : ConsumerRuntime) (envelope : Json) : Prop :=
  ∃ id, runtime.field "id" (some envelope) = .ok id

namespace NotificationKafkaConsumer

section Failures

variable {runtime : ConsumerRuntime} {envelope : Json}

theorem failureLine_ok_iff (h : Notable envelope) (err : Thrown) :
    (∃ line, failureLine runtime envelope err = .ok line) ↔
      HasWritableId runtime envelope ∧ err ≠ .unwritable := by
  obtain ⟨type, -, htype⟩ := h
  have htypeText : runtime.field "type" (some envelope) = .ok type.text := by
    unfold ConsumerRuntime.field
    rw [htype]
    rfl
  unfold failureLine HasWritableId
  rw [htypeText]
  cases runtime.field "id" (some envelope) with
  | error err' =>
    constructor
    · rintro ⟨line, hline⟩
      nomatch hline
    · rintro ⟨⟨id, hid⟩, -⟩
      nomatch hid
  | ok id =>
    cases err with
    | error message => exact ⟨fun _ => ⟨⟨id, rfl⟩, nofun⟩, fun _ => ⟨_, rfl⟩⟩
    | unwritable =>
      constructor
      · rintro ⟨line, hline⟩
        nomatch hline
      · rintro ⟨-, hne⟩
        exact absurd rfl hne

theorem read_of_ne_null (hnull : envelope ≠ .null) (name : String) :
    ∃ value, Json.read name (some envelope) = .ok value := by
  cases envelope with
  | null => exact absurd rfl hnull
  | _ => exact ⟨_, rfl⟩

theorem dispatchParsed_of_not_notable (hnull : envelope ≠ .null) (h : ¬ Notable envelope) :
    dispatchParsed runtime envelope = pure () := by
  obtain ⟨type, htype⟩ := read_of_ne_null hnull "type"
  unfold dispatchParsed dispatchWith
  simp only [htype, evaluated_ok, pure_bind]
  split
  · exact absurd ⟨.orderConfirmed, .inl rfl, htype⟩ h
  · exact absurd ⟨.orderCancelled, .inr (.inl rfl), htype⟩ h
  · exact absurd ⟨.paymentDeclined, .inr (.inr rfl), htype⟩ h
  · rfl

variable (runtime) in
theorem dispatchParsed_of_notable (h : Notable envelope) :
    ∃ next : Option Json → CustomerContact → NotificationProc Unit,
      dispatchParsed runtime envelope =
        evaluated (Json.read "payload" (some envelope)) >>= fun payload =>
          evaluated (Json.read "customerId" payload) >>= fun customerId =>
            .act (.resolve customerId) fun reply => answered reply >>= next payload := by
  obtain ⟨type, hfacing, htype⟩ := h
  unfold dispatchParsed dispatchWith
  rw [htype]
  rcases hfacing with rfl | rfl | rfl <;> exact ⟨_, rfl⟩

variable (runtime) in
/-- Without a payload it fails at once, and else asks for the contact first. -/
theorem dispatchParsed_lacks (hnotable : Notable envelope) (h : LacksPayload envelope) :
    ∃ message, dispatchParsed runtime envelope = throw (.error message) := by
  obtain ⟨next, hnext⟩ := dispatchParsed_of_notable runtime hnotable
  rw [hnext]
  rcases h with hmissing | hmissing <;> rw [hmissing] <;> exact ⟨_, rfl⟩

variable (runtime) in
theorem dispatchParsed_asks (hnull : envelope ≠ .null) (hnotable : Notable envelope)
    (h : ¬ LacksPayload envelope) :
    ∃ customerId next, dispatchParsed runtime envelope =
      .act (.resolve customerId) fun reply => answered reply >>= next := by
  obtain ⟨next, hnext⟩ := dispatchParsed_of_notable runtime hnotable
  obtain ⟨payload, hpayload⟩ := read_of_ne_null hnull "payload"
  rw [hnext, hpayload]
  cases payload with
  | none => exact absurd (.inl hpayload) h
  | some payload =>
    cases payload with
    | null => exact absurd (.inr hpayload) h
    | _ => exact ⟨_, _, rfl⟩

/-- The act is a commit of offsets. -/
inductive IsCommit : NotificationAct → Prop
  | commitOffsets (partition : TopicPartition) (offset : ℕ) :
    IsCommit (.commitOffsets partition offset)

theorem dispatchParsed_avoids : (dispatchParsed runtime envelope).Avoids IsCommit := by
  have hanswered {α : Type} (r : Except Thrown α) : (answered r).Avoids IsCommit :=
    Proc.avoids_ofExcept r
  refine dispatchWith_has (P := fun _ p => p.Avoids IsCommit) runtime (fun _ _ hp hf => hp.bind hf)
    trivial (fun r => ?_) ?_ ?_ ?_ envelope
  · cases r <;> trivial
  all_goals exact fun _ => ⟨nofun, hanswered⟩

end Failures

end NotificationKafkaConsumer

/-! ## Which messages block -/

section Blocks

variable (runtime : ConsumerRuntime) (Throws : Thrown → Prop) (value : ByteArray)
  (partition : TopicPartition) (offset : ℕ)

/-- The columns of the audit log take the row of the message, if it has one. -/
def AuditInsertable : Prop :=
  ∀ envelope row, runtime.decode value = some envelope →
    AuditKafkaConsumer.auditRow runtime.toRuntime envelope = .ok row → row.rejection = none

/-- Whatever was audited before, the audit consumer commits the offset of the
message, its insert and offset commits not failing. -/
def AuditCommits : Prop :=
  AuditInsertable runtime value →
  ∀ (table : AuditTable) (answer : ℕ → (act : AuditAct) → act.Reply),
    (∀ k act, answer k act = .ok ()) →
    .acted () (.commitOffsets partition (offset + 1)) (.ok ()) ∈
      ((AuditKafkaConsumer.eachMessage runtime.toRuntime ⟨partition, offset⟩
        (some (runtime.toText value))).run answer () ⟨table, []⟩).2.trace

/-- The providers succeed or throw such values, and offset commits do not fail. -/
structure Behaves (answer : ℕ → (act : NotificationAct) → act.Reply) : Prop where
  resolve : ∀ k customerId err, answer k (.resolve customerId) = .error err → Throws err
  sendEmail : ∀ k message err, answer k (.sendEmail message) = .error err → Throws err
  sendSms : ∀ k message err, answer k (.sendSms message) = .error err → Throws err
  commitOffsets : ∀ k partition offset, answer k (.commitOffsets partition offset) = .ok ()

/-- Then the notification consumer commits the offset of the message. -/
def NotificationCommits : Prop :=
  ∀ answer : ℕ → (act : NotificationAct) → act.Reply, Behaves Throws answer →
    .acted () (.commitOffsets partition (offset + 1)) (.ok ()) ∈
      ((NotificationKafkaConsumer.eachMessage runtime partition offset (some value)).run answer ()
        ⟨[], []⟩).2.trace

/-- A message that the notification consumer gets past: what it parses to is not
null, and of one that is notified of the failure to notify can be logged. -/
def Loggable : Prop :=
  ∃ envelope, runtime.decode value = some envelope ∧ envelope ≠ .null ∧
    (Notable envelope → HasWritableId runtime envelope ∧
      (LacksPayload envelope ∨ ¬ Throws .unwritable))

end Blocks

section

variable {runtime : ConsumerRuntime} {Throws : Thrown → Prop} {value : ByteArray}
  {partition : TopicPartition} {offset : ℕ} {envelope : Json}

/-! ### The audit consumer -/

variable (runtime) in
theorem auditRow_ok {envelope : Json} (h : envelope ≠ .null) :
    ∃ row, AuditKafkaConsumer.auditRow runtime.toRuntime envelope = .ok row := by
  cases envelope with
  | null => exact absurd rfl h
  | _ => exact ⟨_, rfl⟩

theorem auditCommits_iff :
    AuditCommits runtime value partition offset ↔ runtime.decode value ≠ some .null := by
  constructor
  · intro h hdecode
    have hparse : runtime.parse (runtime.toText value) = some .null := hdecode
    have hinsertable : AuditInsertable runtime value := fun envelope row hdecode' hrow => by
      obtain rfl := Option.some.inj (hdecode.symm.trans hdecode')
      nomatch hrow
    have hcommitted := h hinsertable [] (fun _ _ => .ok ()) fun _ _ => rfl
    unfold AuditKafkaConsumer.eachMessage at hcommitted
    simp only [hparse] at hcommitted
    nomatch hcommitted
  · intro hnull hinsertable table answer hok
    have hcommits : ∀ s, Event.acted () (.commitOffsets partition (offset + 1)) (.ok ()) ∈
        ((AuditKafkaConsumer.commit ⟨partition, offset⟩).run answer () s).2.trace := by
      intro s
      rw [AuditKafkaConsumer.commit_eq, Proc.run_act, hok]
      exact List.mem_cons_self
    unfold AuditKafkaConsumer.eachMessage
    cases hparse : runtime.parse (runtime.toText value) with
    | none =>
      simp only [hparse]
      exact hcommits _
    | some envelope =>
      have hne : envelope ≠ .null := by
        rintro rfl
        exact hnull hparse
      obtain ⟨row, hrow⟩ := auditRow_ok runtime hne
      simp only [hparse, hrow, Proc.ofExcept_ok, pure_bind, AuditKafkaConsumer.record_commit]
      cases hexec : (AuditLogRepository.insert ⟨partition, offset⟩ row).exec table [] with
      | ok writes =>
        rw [Proc.run_tx_ok _ _ _ hexec]
        exact hcommits _
      | error err =>
        obtain hrejected | ⟨rfl, -⟩ := exec_insert_error hexec
        · nomatch (hinsertable envelope row hparse hrow).symm.trans hrejected
        · rw [Proc.run_tx_error _ _ _ hexec]
          exact hcommits _

/-! ### The notification consumer -/

namespace NotificationKafkaConsumer

theorem dispatchParsed_raises {answer : ℕ → (act : NotificationAct) → act.Reply}
    (h : Behaves Throws answer) :
    (dispatchParsed runtime envelope).RaisesOnly answer () fun err =>
      err ≠ .unwritable ∨ Throws err := by
  refine dispatchWith_has (P := fun _ p => p.RaisesOnly answer () _) runtime
    (fun _ _ hp hf => hp.bind hf) (Proc.raisesOnly_pure ()) (fun r => ?_) ?_ ?_ ?_ envelope
  · cases r with
    | ok a => exact Proc.raisesOnly_pure a
    | error message => exact Proc.raisesOnly_throw (.inl nofun)
  · exact fun customerId => Proc.raisesOnly_act fun k => Proc.raisesOnly_ofExcept fun err herr =>
      .inr (h.resolve k customerId err herr)
  · exact fun message => Proc.raisesOnly_act fun k => Proc.raisesOnly_ofExcept fun err herr =>
      .inr (h.sendEmail k message err herr)
  · exact fun message => Proc.raisesOnly_act fun k => Proc.raisesOnly_ofExcept fun err herr =>
      .inr (h.sendSms k message err herr)

/-- The offset is committed unless the dispatch fails and that cannot be logged. -/
theorem committed_iff {answer : ℕ → (act : NotificationAct) → act.Reply}
    (h : Behaves Throws answer) (hdecode : runtime.decode value = some envelope) :
    Event.acted () (.commitOffsets partition (offset + 1)) (.ok ()) ∈
        ((eachMessage runtime partition offset (some value)).run answer () ⟨[], []⟩).2.trace ↔
      ∀ err, ((dispatchParsed runtime envelope).run answer () ⟨[], []⟩).1 = .error err →
        ∃ line, failureLine runtime envelope err = .ok line := by
  have hcommits : ∀ s, Event.acted () (.commitOffsets partition (offset + 1)) (.ok ()) ∈
      (Proc.run answer () (Proc.act (.commitOffsets partition (offset + 1)) answered) s).2.trace := by
    intro s
    rw [Proc.run_act, h.commitOffsets]
    exact List.mem_cons_self
  have hbefore : ∀ reply, Event.acted () (.commitOffsets partition (offset + 1)) reply ∉
      ((dispatchParsed runtime envelope).run answer () ⟨[], []⟩).2.trace := by
    intro reply hmem
    nomatch dispatchParsed_avoids.acted_run (.commitOffsets _ _) hmem
  unfold eachMessage
  simp only [hdecode, Proc.run_bind, Proc.run_tryCatch]
  rcases hrun : (dispatchParsed runtime envelope).run answer () ⟨[], []⟩ with ⟨r, s⟩
  rw [hrun] at hbefore
  cases r with
  | ok a => exact ⟨fun _ _ => nofun, fun _ => hcommits _⟩
  | error err =>
    cases hline : failureLine runtime envelope err with
    | ok line =>
      simp only [hline]
      refine ⟨fun _ err' herr => ?_, fun _ => hcommits _⟩
      obtain rfl := Except.error.inj herr
      exact ⟨line, hline⟩
    | error message =>
      simp only [hline]
      refine ⟨fun hmem => absurd hmem (hbefore _), fun hlines => ?_⟩
      obtain ⟨line, hline'⟩ := hlines err rfl
      nomatch hline.symm.trans hline'

end NotificationKafkaConsumer

open NotificationKafkaConsumer in
theorem notificationCommits_of_loggable (h : Loggable runtime Throws value) :
    NotificationCommits runtime Throws value partition offset := by
  obtain ⟨envelope, hdecode, hnull, hloggable⟩ := h
  intro answer hanswer
  refine (committed_iff hanswer hdecode).mpr fun err herr => ?_
  by_cases hnotable : Notable envelope
  · obtain ⟨hid, hpayload⟩ := hloggable hnotable
    refine (failureLine_ok_iff hnotable err).mpr ⟨hid, ?_⟩
    rcases hpayload with hlacks | hthrows
    · obtain ⟨message, hdispatch⟩ := dispatchParsed_lacks runtime hnotable hlacks
      rw [hdispatch] at herr
      obtain rfl := Except.error.inj herr
      exact nofun
    · rcases dispatchParsed_raises hanswer _ err herr with hne | hthrown
      · exact hne
      · rintro rfl
        exact hthrows hthrown
  · rw [dispatchParsed_of_not_notable hnull hnotable] at herr
    nomatch herr

/-- Every resolution of a contact throws, and nothing else does. -/
def unresolved (err : Thrown) : ℕ → (act : NotificationAct) → act.Reply
  | _, .resolve _ => .error err
  | _, .sendEmail _ => .ok ()
  | _, .sendSms _ => .ok ()
  | _, .log _ => ()
  | _, .commitOffsets _ _ => .ok ()

theorem behaves_unresolved {err : Thrown} (h : Throws err) : Behaves Throws (unresolved err) where
  resolve := by
    intro k customerId err' herr
    obtain rfl := Except.error.inj herr
    exact h
  sendEmail := nofun
  sendSms := nofun
  commitOffsets _ _ _ := rfl

open NotificationKafkaConsumer in
theorem loggable_of_notificationCommits (hthrows : ∃ err, Throws err)
    (h : NotificationCommits runtime Throws value partition offset) :
    Loggable runtime Throws value := by
  obtain ⟨err₀, hthrown₀⟩ := hthrows
  cases hdecode : runtime.decode value with
  | none =>
    have hcommitted := h _ (behaves_unresolved hthrown₀)
    unfold NotificationKafkaConsumer.eachMessage at hcommitted
    simp only [hdecode] at hcommitted
    nomatch hcommitted
  | some envelope =>
    have hlines : ∀ err, Throws err →
        ∀ err', ((dispatchParsed runtime envelope).run (unresolved err) () ⟨[], []⟩).1 =
          .error err' → ∃ line, failureLine runtime envelope err' = .ok line :=
      fun err herr => (committed_iff (behaves_unresolved herr) hdecode).mp
        (h _ (behaves_unresolved herr))
    have hnull : envelope ≠ .null := by
      rintro rfl
      obtain ⟨line, hline⟩ := hlines err₀ hthrown₀ _ rfl
      nomatch hline
    refine ⟨envelope, hdecode, hnull, fun hnotable => ?_⟩
    by_cases hlacks : LacksPayload envelope
    · obtain ⟨message, hdispatch⟩ := dispatchParsed_lacks runtime hnotable hlacks
      obtain ⟨hid, -⟩ := (failureLine_ok_iff hnotable _).mp
        (hlines err₀ hthrown₀ (.error message) (by rw [hdispatch]; rfl))
      exact ⟨hid, .inl hlacks⟩
    · obtain ⟨customerId, next, hdispatch⟩ := dispatchParsed_asks runtime hnull
        hnotable hlacks
      have hlogged : ∀ err, Throws err → HasWritableId runtime envelope ∧ err ≠ .unwritable :=
        fun err herr => (failureLine_ok_iff hnotable _).mp
          (hlines err herr err (by rw [hdispatch]; rfl))
      exact ⟨(hlogged err₀ hthrown₀).1, .inr fun hthrown => (hlogged _ hthrown).2 rfl⟩

/-- **Which messages do not block.**  The audit consumer commits the offset of
every message but null; the notification consumer that of every message that
parses to something else, if it can log the failure to notify of it. -/
theorem neverBlock_iff (runtime : ConsumerRuntime) (Throws : Thrown → Prop)
    (hthrows : ∃ err, Throws err) (value : ByteArray) (partition : TopicPartition) (offset : ℕ) :
    (AuditCommits runtime value partition offset ↔ runtime.decode value ≠ some .null) ∧
      (NotificationCommits runtime Throws value partition offset ↔
        Loggable runtime Throws value) :=
  ⟨auditCommits_iff, loggable_of_notificationCommits hthrows, notificationCommits_of_loggable⟩

end

/-! ## Three messages -/

def sampleRuntime : ConsumerRuntime := { utf8Runtime with numberText := numberText }

theorem sampleRuntime_decode {value : Json} (h : value.Writable) :
    sampleRuntime.decode value.text.toUTF8 = some value := by
  show Json.parse (utf8Runtime.toText _) = _
  rw [utf8Runtime_toText]
  exact parse_text h

/-- A number that someone sent is passed by. -/
theorem neverBlock_number :
    AuditCommits sampleRuntime "5".toUTF8 ⟨"order.events", 0⟩ 0 ∧
      NotificationCommits sampleRuntime (fun _ => True) "5".toUTF8 ⟨"order.events", 0⟩ 0 := by
  obtain ⟨haudit, hnotification⟩ := neverBlock_iff sampleRuntime (fun _ => True)
    ⟨.unwritable, trivial⟩ "5".toUTF8 ⟨"order.events", 0⟩ 0
  have hfive : IsDecimal 5 := by decide +kernel
  have htext : (Json.num 5).text = "5" := by decide +kernel
  have hdecode : sampleRuntime.decode "5".toUTF8 = some (.num 5) :=
    htext ▸ sampleRuntime_decode hfive
  refine ⟨haudit.mpr ?_, hnotification.mpr ⟨.num 5, hdecode, nofun, ?_⟩⟩
  · rw [hdecode]
    exact nofun
  · rintro ⟨type, -, htype⟩
    nomatch htype

/-- The audit consumer does not get past null, nor the notification consumer
past what does not parse. -/
theorem neverBlock_fails :
    (¬ ∀ (runtime : ConsumerRuntime) (value : ByteArray) (partition : TopicPartition) (offset : ℕ),
      AuditCommits runtime value partition offset) ∧
    ¬ ∀ (runtime : ConsumerRuntime) (Throws : Thrown → Prop) (value : ByteArray)
      (partition : TopicPartition) (offset : ℕ),
      NotificationCommits runtime Throws value partition offset := by
  constructor
  · intro hall
    have htext : Json.null.text = "null" := by decide +kernel
    exact auditCommits_iff.mp (hall sampleRuntime "null".toUTF8 ⟨"order.events", 0⟩ 0)
      (htext ▸ sampleRuntime_decode trivial)
  · intro hall
    obtain ⟨envelope, hdecode, -⟩ := loggable_of_notificationCommits ⟨.unwritable, trivial⟩
      (hall sampleRuntime (fun _ => True) "not json".toUTF8 ⟨"order.events", 0⟩ 0)
    have hfails : (Json.parse "not json").isNone := by decide +kernel
    have hparse : Json.parse "not json" = some envelope := utf8Runtime_toText "not json" ▸ hdecode
    rw [hparse] at hfails
    cases hfails

end Saganova
