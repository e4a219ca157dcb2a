import Saganova.AuditProgress
import Saganova.CheckoutOutcomes
import Saganova.CorrelationIds
import Saganova.PoisonMessages

/-!
# The audit trail

"Show me everything that happened for this checkout": what
`internal/audit/by-correlation` and `by-aggregate` answer, where the audit
service has consumed the topics of the composed system.

The broker's log is any that has the messages of a run on it (`BrokerLog`), and
the consumer's sessions read it with all their failures (`AuditRun`).  Whatever
the trail of a correlation id shows was published for an order of its request,
and what was confirmed for such an order is in it (`auditTrail_true`).
-/

namespace Saganova

open Concurrency

/-! ## Messages as JSON -/

/-- The `*_COMMAND` constants' values. -/
def CommandType.text : CommandType → String
  | .createOrder => "order.create.v1"
  | .confirmOrder => "order.confirm.v1"
  | .cancelOrder => "order.cancel.v1"
  | .reserveStock => "inventory.reserve_stock.v1"
  | .releaseInventory => "inventory.release.v1"
  | .authorizePayment => "payment.authorize.v1"
  | .refundPayment => "payment.refund.v1"
  | .other type => type

/-- The object of `makeCommand`. -/
def CommandEnvelope.json (c : CommandEnvelope) : Json :=
  .obj [("id", .str c.id), ("type", .str c.type.text), ("version", .num c.version),
    ("correlationId", .str c.correlationId), ("issuedAt", .str c.issuedAt),
    ("payload", c.payload.json)]

/-- `ORDER_TOPIC`, `INVENTORY_TOPIC`, `PAYMENT_TOPIC` and `SAGA_COMMANDS_TOPIC`. -/
def Topic.text : Topic → String
  | .orderEvents => "order.events"
  | .inventoryEvents => "inventory.events"
  | .paymentEvents => "payment.events"
  | .sagaCommands => "saga.commands"

namespace Message

def json : Message → Json
  | .event e => e.json
  | .command c => c.json

def type : Message → String
  | .event e => e.type.text
  | .command c => c.type.text

def payload : Message → Payload
  | .event e => e.payload
  | .command c => c.payload

def correlationId : Message → String
  | .event e => e.correlationId
  | .command c => c.correlationId

/-- A command has none. -/
def aggregateId : Message → Option String
  | .event e => some e.aggregateId
  | .command _ => none

/-- The row that the message is audited as. -/
def auditRow (message : Message) : AuditRow where
  eventType := message.type
  aggregateId := message.aggregateId
  correlationId := message.correlationId
  payload := message.payload.json

end Message

/-- **The consumer reads off a message what it says.** -/
theorem auditRow_json (runtime : Runtime) (message : Message) :
    AuditKafkaConsumer.auditRow runtime message.json = .ok message.auditRow := by
  cases message <;> rfl

/-! ## The queries -/

/-- The pattern matches every topic there is. -/
theorem subscribes_topic (topic : Topic) : AuditKafkaConsumer.subscribes topic.text := by
  cases topic <;> decide +kernel

namespace AuditLogRepository

/-- `find` with a condition on the columns, in the order of `consumedAt`, which
the database fills in. -/
def find (consumedAt : AuditKey → ℕ) (table : AuditTable) (condition : AuditRow → Bool) :
    AuditTable :=
  (table.filter fun entry => condition entry.2).mergeSort fun a b =>
    consumedAt a.1 ≤ consumedAt b.1

def findByCorrelationId (consumedAt : AuditKey → ℕ) (table : AuditTable)
    (correlationId : String) : AuditTable :=
  find consumedAt table fun row => row.correlationId = correlationId

def findByAggregateId (consumedAt : AuditKey → ℕ) (table : AuditTable) (aggregateId : String) :
    AuditTable :=
  find consumedAt table fun row => row.aggregateId = some aggregateId

section Find

variable {consumedAt : AuditKey → ℕ} {table : AuditTable} {key : AuditKey} {row : AuditRow}

theorem mem_find {condition : AuditRow → Bool} :
    ⟨key, row⟩ ∈ find consumedAt table condition ↔ ⟨key, row⟩ ∈ table ∧ condition row := by
  unfold find
  rw [List.mem_mergeSort, List.mem_filter]

theorem mem_findByCorrelationId {correlationId : String} :
    ⟨key, row⟩ ∈ findByCorrelationId consumedAt table correlationId ↔
      ⟨key, row⟩ ∈ table ∧ row.correlationId = correlationId := by
  unfold findByCorrelationId
  rw [mem_find, decide_eq_true_iff]

theorem mem_findByAggregateId {aggregateId : String} :
    ⟨key, row⟩ ∈ findByAggregateId consumedAt table aggregateId ↔
      ⟨key, row⟩ ∈ table ∧ row.aggregateId = some aggregateId := by
  unfold findByAggregateId
  rw [mem_find, decide_eq_true_iff]

/-- One row for each record. -/
theorem nodup_find {condition : AuditRow → Bool} (h : (table.map Sigma.fst).Nodup) :
    ((find consumedAt table condition).map Sigma.fst).Nodup := by
  unfold find
  rw [((List.mergeSort_perm _ _).map Sigma.fst).nodup_iff]
  exact h.sublist (List.filter_sublist.map Sigma.fst)

end Find

end AuditLogRepository

/-! ## The broker -/

/-- A message's value, as the consumer's `toString('utf-8')` gives it. -/
def wire (runtime : JsonRuntime) (message : Message) : String :=
  runtime.toText (JsonCodec.encode runtime message.json)

/-- What was stringified is parsed to what it was. -/
def ReadsBack (runtime : JsonRuntime) (s : Shared) : Prop :=
  ∀ topic message, Published s topic message →
    runtime.parse (wire runtime message) = some message.json

/-- A broker that keeps what it confirmed, and has only what was published. -/
structure BrokerLog (runtime : JsonRuntime) (s : Shared) (log : KafkaLog) : Prop where
  published : ∀ partition offset value, log partition offset = some value →
    ∃ topic message, partition.topic = topic.text ∧ Published s topic message ∧
      value = some (wire runtime message)
  confirmed : ∀ topic message, Confirmed s topic message →
    ∃ n offset, log ⟨topic.text, n⟩ offset = some (some (wire runtime message))

section Audit

variable {runtime : JsonRuntime} {s : Shared} {log : KafkaLog} {a : AuditState} {key : AuditKey}
  {row : AuditRow}

/-- A row of the audit log is that of a message which was published. -/
theorem AuditInv.message (ha : AuditInv runtime.toRuntime log a)
    (hlog : BrokerLog runtime s log) (hparse : ReadsBack runtime s)
    (hrow : ⟨key, row⟩ ∈ a.auditLog) : ∃ topic message,
      key.partition.topic = topic.text ∧ Published s topic message ∧ row = message.auditRow := by
  obtain ⟨value, envelope, hvalue, henvelope, hentry⟩ :=
    ha.entry key row ((List.mem_dlookup_iff ha.nodup).mpr hrow)
  obtain ⟨topic, message, htopic, hpublished, heq⟩ := hlog.published _ _ _ hvalue
  obtain rfl := Option.some.inj heq
  obtain rfl := Option.some.inj ((hparse topic message hpublished).symm.trans henvelope)
  rw [auditRow_json] at hentry
  exact ⟨topic, message, htopic, hpublished, (Except.ok.inj hentry).symm⟩

/-- A message that the consumer has passed has its row. -/
theorem AuditInv.row_of_committed (ha : AuditInv runtime.toRuntime log a)
    (hparse : ReadsBack runtime s) {topic : Topic} {message : Message}
    (hpublished : Published s topic message)
    (hvalue : log key.partition key.offset = some (some (wire runtime message)))
    (hcommitted : key.offset < a.committed key.partition) :
    ⟨key, message.auditRow⟩ ∈ a.auditLog := by
  obtain ⟨row, hentry, hrow⟩ := ha.committed key.partition key.offset hcommitted _ _ hvalue
    (hparse topic message hpublished)
  rw [auditRow_json] at hentry
  obtain rfl := Except.ok.inj hentry
  exact (List.mem_dlookup_iff ha.nodup).mp hrow

end Audit

/-! ## A broker -/

/-- One partition for each topic, with its messages as they were published. -/
def keptLog (runtime : JsonRuntime) (s : Shared) : KafkaLog := fun partition offset =>
  if partition.partition = 0 then
    ((publications s).reverse.filter fun p => p.1.text = partition.topic)[offset]?.map
      fun p => some (wire runtime p.2)
  else none

section Kept

variable {runtime : JsonRuntime} {s : Shared} {log : KafkaLog}

theorem Confirmed.published {topic : Topic} {message : Message}
    (h : Confirmed s topic message) : Published s topic message := by
  obtain ⟨task, key, hmem⟩ := h
  exact ⟨task, key, .ok (), hmem⟩

theorem brokerLog_keptLog : BrokerLog runtime s (keptLog runtime s) where
  published partition offset value hvalue := by
    unfold keptLog at hvalue
    split at hvalue
    · obtain ⟨⟨topic, message⟩, hget, rfl⟩ := Option.map_eq_some_iff.mp hvalue
      obtain ⟨hmem, htopic⟩ := List.mem_filter.mp (List.mem_of_getElem? hget)
      exact ⟨topic, message, (of_decide_eq_true htopic).symm,
        published_iff.mpr (List.mem_reverse.mp hmem), rfl⟩
    · cases hvalue
  confirmed topic message hconfirmed := by
    have hmem := List.mem_reverse.mpr (published_iff.mp hconfirmed.published)
    have hmem' : (topic, message) ∈ (publications s).reverse.filter fun p => p.1.text = topic.text :=
      List.mem_filter.mpr ⟨hmem, by simp⟩
    obtain ⟨offset, hget⟩ := List.mem_iff_getElem?.mp hmem'
    refine ⟨0, offset, ?_⟩
    unfold keptLog
    rw [if_pos rfl, hget]
    rfl

/-- Where the records of `keptLog` are. -/
def keptKeys (s : Shared) : List AuditKey :=
  [Topic.orderEvents, .inventoryEvents, .paymentEvents, .sagaCommands].flatMap fun topic =>
    (List.range (publications s).length).map fun offset => ⟨⟨topic.text, 0⟩, offset⟩

theorem recordsIn_keptLog : RecordsIn (keptLog runtime s) (keptKeys s) := by
  rintro ⟨name, n⟩ offset hsome
  unfold keptLog at hsome
  split at hsome
  · rename_i hzero
    obtain rfl : n = 0 := hzero
    rw [Option.isSome_map] at hsome
    obtain ⟨⟨topic, message⟩, hget⟩ := Option.isSome_iff_exists.mp hsome
    obtain ⟨-, htopic⟩ := List.mem_filter.mp (List.mem_of_getElem? hget)
    obtain rfl : topic.text = name := of_decide_eq_true htopic
    obtain ⟨hlt, -⟩ := List.getElem?_eq_some_iff.mp hget
    have hlen : offset < (publications s).length :=
      hlt.trans_le ((List.length_filter_le _ _).trans (List.length_reverse ..).le)
    refine List.mem_flatMap.mpr ⟨topic, ?_, List.mem_map.mpr ⟨offset, List.mem_range.mpr hlen, rfl⟩⟩
    cases topic <;> simp
  · cases hsome

theorem BrokerLog.consumable (hlog : BrokerLog runtime s log) (hparse : ReadsBack runtime s)
    (hstorable : ∀ p ∈ publications s, p.2.auditRow.Storable) :
    Consumable runtime.toRuntime log := by
  intro partition offset value hvalue
  obtain ⟨topic, message, -, hpublished, rfl⟩ := hlog.published _ _ _ hvalue
  refine ⟨_, rfl, fun envelope henvelope => ?_⟩
  obtain rfl := Option.some.inj ((hparse topic message hpublished).symm.trans henvelope)
  exact ⟨_, auditRow_json _ message, hstorable _ (published_iff.mp hpublished)⟩

/-- Every run whose messages can be stored can be audited to its end. -/
theorem exists_audited (hparse : ReadsBack runtime s)
    (hstorable : ∀ p ∈ publications s, p.2.auditRow.Storable) : ∃ log a, BrokerLog runtime s log ∧
    AuditRun runtime.toRuntime log .empty a ∧ CaughtUp log a := by
  obtain ⟨a, hrun, hcaught⟩ := run_to_end (a := .empty)
    (brokerLog_keptLog.consumable hparse hstorable) recordsIn_keptLog
  exact ⟨keptLog runtime s, a, brokerLog_keptLog, hrun, hcaught⟩

end Kept

/-! ## What is parsed -/

/-- As doubles are. -/
def Message.Decimal (message : Message) : Prop := message.payload.Decimal

instance (message : Message) : Decidable message.Decimal :=
  inferInstanceAs (Decidable message.payload.Decimal)

theorem isDecimal_natCast (n : ℕ) : IsDecimal n := isDecimal_of_den (e := 0) (Rat.den_natCast n)

theorem Message.writable_json {message : Message} (h : message.Decimal) :
    message.json.Writable := by
  cases message with
  | event e => exact EventEnvelope.writable_json h
  | command c =>
    exact ⟨(by decide : ["id", "type", "version", "correlationId", "issuedAt", "payload"].Nodup),
      trivial, trivial, isDecimal_natCast _, trivial, trivial, Payload.writable_json h, trivial⟩

/-- `JSON.parse` reads what `JSON.stringify` wrote of a message. -/
theorem readsBack_jsonRuntime {columnText : Json → String} {toText : ByteArray → String}
    {s : Shared} (htext : ∀ text : String, toText text.toUTF8 = text)
    (hdecimal : ∀ p ∈ publications s, p.2.Decimal) :
    ReadsBack (jsonRuntime columnText toText) s := by
  intro topic message hpublished
  show Json.parse (toText (Json.text _).toUTF8) = _
  rw [htext]
  exact parse_text (Message.writable_json (hdecimal _ (published_iff.mp hpublished)))

/-! ## The trail of a correlation id -/

/-- What the trail of a correlation id shows, and that it shows the order. -/
structure TrailTrue (runtime : JsonRuntime) (s : Shared) (log : KafkaLog)
    (committed : TopicPartition → ℕ) (o : Uuid) (correlationId : String) (trail : AuditTable) :
    Prop where
  /-- a row for each record at most -/
  nodup : (trail.map Sigma.fst).Nodup
  /-- each is that of a message about an order that was created with the id -/
  shown : ∀ key row, ⟨key, row⟩ ∈ trail → ∃ topic message o', key.partition.topic = topic.text ∧
    Published s topic message ∧ row = message.auditRow ∧ message.payload.orderId = some o' ∧
    IsCorrelationId s o' correlationId
  /-- and every message about the order is in it, once it is consumed -/
  kept : ∀ topic message, Confirmed s topic message → message.payload.orderId = some o →
    ∃ n offset, log ⟨topic.text, n⟩ offset = some (some (wire runtime message)) ∧
      (offset < committed ⟨topic.text, n⟩ → ⟨⟨⟨topic.text, n⟩, offset⟩, message.auditRow⟩ ∈ trail)

section Trail

variable {runtime : JsonRuntime} {s : Shared} {log : KafkaLog} {a : AuditState} {o : Uuid}
  {correlationId : String} {consumedAt : AuditKey → ℕ} {topic : Topic} {message : Message}

/-- Every message has the correlation id of its order. -/
theorem OneCorrelationId.carries (h : OneCorrelationId s) (hpublished : Published s topic message) :
    CarriesCorrelationId s message.payload message.correlationId := by
  cases message with
  | event e => exact h.events topic e hpublished
  | command c => exact h.commands topic c hpublished

theorem IsCorrelationId.of_carries {payload : Payload} (h : IsCorrelationId s o correlationId)
    (ho : payload.orderId = some o) {correlationId' : String}
    (hcarries : CarriesCorrelationId s payload correlationId') :
    correlationId' = correlationId := by
  obtain ⟨o', ho', hrequested, -⟩ := hcarries
  obtain rfl := Option.some.inj (ho.symm.trans ho')
  exact h.2 _ hrequested

/-- **The trail of a correlation id is true and complete.** -/
theorem trailTrue (hone : OneCorrelationId s) (ha : AuditInv runtime.toRuntime log a)
    (hlog : BrokerLog runtime s log) (hparse : ReadsBack runtime s)
    (ho : IsCorrelationId s o correlationId) : TrailTrue runtime s log a.committed o correlationId
      (AuditLogRepository.findByCorrelationId consumedAt a.auditLog correlationId) where
  nodup := AuditLogRepository.nodup_find ha.nodup
  shown key row hrow := by
    obtain ⟨hmem, hid⟩ := AuditLogRepository.mem_findByCorrelationId.mp hrow
    obtain ⟨topic, message, htopic, hpublished, rfl⟩ := ha.message hlog hparse hmem
    obtain ⟨o', ho', hcreated⟩ := hone.carries hpublished
    have hid : message.correlationId = correlationId := hid
    exact ⟨topic, message, o', htopic, hpublished, rfl, ho', hid ▸ hcreated⟩
  kept topic message hconfirmed hpayload := by
    obtain ⟨n, offset, hvalue⟩ := hlog.confirmed topic message hconfirmed
    refine ⟨n, offset, hvalue, fun hcommitted => ?_⟩
    have hpublished := hconfirmed.published
    refine AuditLogRepository.mem_findByCorrelationId.mpr ⟨?_, ?_⟩
    · exact ha.row_of_committed hparse hpublished hvalue hcommitted
    · exact ho.of_carries hpayload (hone.carries hpublished)

end Trail

/-- **"Show me everything that happened for this checkout."**  Whatever fails on
the way, the answer shows what was published for the requests with the id, and
nothing that the consumer has passed is missing. -/
theorem auditTrail_true (runtime : JsonRuntime) (s : LockState)
    (h : LockReach checkoutSystem anything s) (hparse : ReadsBack runtime s.base.shared)
    (log : KafkaLog) (hlog : BrokerLog runtime s.base.shared log) (a : AuditState)
    (ha : AuditRun runtime.toRuntime log .empty a) (consumedAt : AuditKey → ℕ) (o : Uuid)
    (correlationId : String) (ho : IsCorrelationId s.base.shared o correlationId) :
    TrailTrue runtime s.base.shared log a.committed o correlationId
      (AuditLogRepository.findByCorrelationId consumedAt a.auditLog correlationId) := by
  have hreach := h.atomic.2
  exact trailTrue (oneCorrelationId_of_reach hreach) (AuditInv.empty.run ha) hlog hparse ho

/-- The sale, and what its trail shows. -/
theorem auditTrail_true_sale : ∃ (runtime : JsonRuntime) (log : KafkaLog) (a : AuditState),
    CaughtUp log a ∧ TrailTrue runtime sold log a.committed (uuidOf 0) "c"
      (AuditLogRepository.findByCorrelationId AuditKey.offset a.auditLog "c") := by
  have hparse : ReadsBack utf8Runtime sold :=
    readsBack_jsonRuntime utf8Runtime_toText (by decide +kernel)
  obtain ⟨log, a, hlog, hrun, hcaught⟩ := exists_audited hparse (by decide +kernel)
  have hone : OneCorrelationId sold := oneCorrelationId_of_reach reach_sale
  obtain ⟨p, hp, horder, hid⟩ : ∃ p ∈ publications sold, p.2.payload.orderId = some (uuidOf 0) ∧
      p.2.correlationId = "c" := by decide +kernel
  obtain ⟨o, ho, hcreated⟩ := hone.carries (published_iff.mpr hp)
  obtain rfl := Option.some.inj (horder.symm.trans ho)
  rw [hid] at hcreated
  exact ⟨utf8Runtime, log, a, hcaught, auditTrail_true utf8Runtime ⟨.idle sold, fun _ => none⟩
    reach_sale.withLocks hparse log hlog a hrun AuditKey.offset (uuidOf 0) "c" hcreated⟩

end Saganova
