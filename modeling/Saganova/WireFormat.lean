import Saganova.AuditLog
import Saganova.SaveAndLoad

/-!
# Events on the wire

An event goes from the aggregate's queue into a row of the event store and a row
of the outbox, from there into the object that the relay makes by hand, and as
JSON to the consumers, who cast what they parse to `EventEnvelope`.  The relay's
object has no `version`, `sequence` and `occurredAt`, so no event ever arrives
as a complete envelope (`never_complete`).  What else the envelope promises does
arrive (`Relayed`).
-/

namespace Saganova

open Concurrency

/-! ## JSON -/

/-- The constants of `OrderEventType`, `InventoryEventType` and `PaymentEventType`. -/
def EventType.text : EventType → String
  | .orderCreated => "order.created.v1"
  | .orderConfirmed => "order.confirmed.v1"
  | .orderCancelled => "order.cancelled.v1"
  | .inventoryReserved => "inventory.reserved.v1"
  | .inventoryReservationFailed => "inventory.reservation_failed.v1"
  | .inventoryReleased => "inventory.released.v1"
  | .paymentAuthorized => "payment.authorized.v1"
  | .paymentDeclined => "payment.declined.v1"
  | .paymentRefunded => "payment.refunded.v1"
  | .other type => type

/-- An object; `JSON.stringify` leaves out what is undefined. -/
def Json.object (fields : List (String × Option Json)) : Json :=
  .obj (fields.filterMap fun field => field.2.map (field.1, ·))

def OrderLineItem.json (item : OrderLineItem) : Json :=
  .obj
    [("sku", .str item.sku), ("qty", .num item.qty), ("unitPriceCents", .num item.unitPriceCents)]

def ReservationLine.json (line : ReservationLine) : Json :=
  .obj [("sku", .str line.sku), ("qty", .num line.qty)]

def Payload.json (p : Payload) : Json :=
  .object
    [("orderId", p.orderId.map .str), ("customerId", p.customerId.map .str),
      ("items", p.items.map fun items => .arr (items.map OrderLineItem.json)),
      ("totalCents", p.totalCents.map .num),
      ("lines", p.lines.map fun lines => .arr (lines.map ReservationLine.json)),
      ("amountCents", p.amountCents.map .num), ("reservationId", p.reservationId.map .str),
      ("paymentId", p.paymentId.map .str), ("pspReference", p.pspReference.map .str),
      ("declineCode", p.declineCode.map .str), ("sku", p.sku.map .str),
      ("reason", p.reason.map .str)]

/-- The object that the relay publishes. -/
def EventEnvelope.json (e : EventEnvelope) : Json :=
  .obj [("id", .str e.id), ("type", .str e.type.text), ("correlationId", .str e.correlationId),
    ("aggregateId", .str e.aggregateId), ("payload", e.payload.json)]

/-- The runtime with `JSON.stringify`, and `toString('utf-8')` of a buffer. -/
structure JsonRuntime extends Runtime where
  stringify : Json → String
  toText : ByteArray → String

namespace JsonCodec

def encode (runtime : JsonRuntime) (value : Json) : ByteArray :=
  (runtime.stringify value).toUTF8

def decode (runtime : JsonRuntime) (buffer : ByteArray) : Option Json :=
  runtime.parse (runtime.toText buffer)

end JsonCodec

/-- The language's own functions, with what it makes of a buffer, and the driver
of an array, given. -/
def jsonRuntime (columnText : Json → String) (toText : ByteArray → String) : JsonRuntime where
  parse := Json.parse
  columnText := columnText
  stringify := Json.text
  toText := toText

/-- As far as buffers of UTF-8 go. -/
def utf8Runtime : JsonRuntime :=
  jsonRuntime Json.text fun buffer => (String.fromUTF8? buffer).getD ""

theorem utf8Runtime_toText (text : String) : utf8Runtime.toText text.toUTF8 = text := by
  have hvalid : String.fromUTF8? text.toUTF8 = some text := dif_pos text.isValidUTF8
  exact congrArg (Option.getD · "") hvalid

/-! ## Messages can be written -/

theorem Json.writable_object {fields : List (String × Option Json)}
    (hnames : (fields.map Prod.fst).Nodup)
    (hfields : ∀ field ∈ fields, ∀ value ∈ field.2, value.Writable) :
    (Json.object fields).Writable := by
  have hsub : ((fields.filterMap fun field => field.2.map (field.1, ·)).map Prod.fst).Sublist
      (fields.map Prod.fst) := by
    clear hnames hfields
    induction fields with
    | nil => exact .slnil
    | cons field fields ih =>
      obtain ⟨name, value⟩ := field
      cases value with
      | none => exact ih.cons name
      | some value => exact ih.cons_cons name
  refine ⟨hnames.sublist hsub, fieldsWritable_iff.mpr fun field hfield => ?_⟩
  obtain ⟨⟨name, value⟩, hmem, hsome⟩ := List.mem_filterMap.mp hfield
  obtain ⟨value, rfl, rfl⟩ := Option.map_eq_some_iff.mp hsome
  exact hfields _ hmem value rfl

def Payload.numbers (p : Payload) : List Num :=
  p.totalCents.toList ++ p.amountCents.toList ++
    (p.items.getD []).flatMap (fun item => [item.qty, item.unitPriceCents]) ++
    (p.lines.getD []).map ReservationLine.qty

/-- As doubles are. -/
def Payload.Decimal (p : Payload) : Prop := ∀ n ∈ p.numbers, IsDecimal n

instance (p : Payload) : Decidable p.Decimal :=
  inferInstanceAs (Decidable (∀ n ∈ p.numbers, IsDecimal n))

theorem Payload.writable_json {p : Payload} (h : p.Decimal) : p.json.Writable := by
  have hstr : ∀ (text : Option String), ∀ value ∈ text.map Json.str, value.Writable := by
    intro text value hvalue
    obtain ⟨s, -, rfl⟩ := Option.map_eq_some_iff.mp hvalue
    trivial
  have hnum : ∀ (n : Option Num), (∀ m ∈ n, m ∈ p.numbers) →
      ∀ value ∈ n.map Json.num, value.Writable := by
    intro n hn value hvalue
    obtain ⟨m, hm, rfl⟩ := Option.map_eq_some_iff.mp hvalue
    exact h m (hn m hm)
  have hitems : ∀ value ∈ p.items.map fun items => Json.arr (items.map OrderLineItem.json),
      value.Writable := by
    intro value hvalue
    obtain ⟨items, hsome, rfl⟩ := Option.map_eq_some_iff.mp hvalue
    refine elementsWritable_iff.mpr fun element helement => ?_
    obtain ⟨item, hitem, rfl⟩ := List.mem_map.mp helement
    have hmem : ∀ n ∈ [item.qty, item.unitPriceCents], n ∈ p.numbers := fun n hn => by
      simp only [Payload.numbers, hsome, Option.getD_some, List.mem_append, List.mem_flatMap]
      exact .inl (.inr ⟨item, hitem, hn⟩)
    exact ⟨(by decide : ["sku", "qty", "unitPriceCents"].Nodup), trivial,
      h _ (hmem _ (by simp)), h _ (hmem _ (by simp)), trivial⟩
  have hlines : ∀ value ∈ p.lines.map fun lines => Json.arr (lines.map ReservationLine.json),
      value.Writable := by
    intro value hvalue
    obtain ⟨lines, hsome, rfl⟩ := Option.map_eq_some_iff.mp hvalue
    refine elementsWritable_iff.mpr fun element helement => ?_
    obtain ⟨line, hline, rfl⟩ := List.mem_map.mp helement
    have hmem : line.qty ∈ p.numbers := by
      simp only [Payload.numbers, hsome, Option.getD_some, List.mem_append, List.mem_map]
      exact .inr ⟨line, hline, rfl⟩
    exact ⟨(by decide : ["sku", "qty"].Nodup), trivial, h _ hmem, trivial⟩
  have hnames : ["orderId", "customerId", "items", "totalCents", "lines", "amountCents",
      "reservationId", "paymentId", "pspReference", "declineCode", "sku", "reason"].Nodup := by
    decide
  refine Json.writable_object hnames ?_
  simp only [List.forall_mem_cons]
  exact ⟨hstr _, hstr _, hitems, hnum _ (by simp +contextual [Payload.numbers]), hlines,
    hnum _ (by simp +contextual [Payload.numbers]), hstr _, hstr _, hstr _, hstr _, hstr _, hstr _,
    nofun⟩

theorem EventEnvelope.writable_json {e : EventEnvelope} (h : e.payload.Decimal) :
    e.json.Writable :=
  ⟨(by decide : ["id", "type", "correlationId", "aggregateId", "payload"].Nodup),
    trivial, trivial, trivial, trivial, Payload.writable_json h, trivial⟩

/-! ## What arrives -/

section Envelope

variable (svc : Service) (aggregateId : String) (sequence : ℕ) (r : EventStoreRow svc)
  (envelope : Json)

/-- An `EventEnvelope` of the stored event. -/
structure CompleteEnvelope : Prop where
  id : ∃ id, envelope.get "id" = .ok (some id)
  type : envelope.get "type" = .ok (some (.str (svc.eventType r.event).text))
  version : ∃ version, envelope.get "version" = .ok (some version)
  aggregateId : envelope.get "aggregateId" = .ok (some (.str aggregateId))
  sequence : envelope.get "sequence" = .ok (some (.num sequence))
  occurredAt : envelope.get "occurredAt" = .ok (some (.str r.occurredAt))
  correlationId : envelope.get "correlationId" = .ok (some (.str r.correlationId))
  payload : envelope.get "payload" = .ok (some (svc.payload r.event).json)

/-- What the relay sends of it, under the id of the outbox row. -/
structure RelayedEnvelope (oid : Uuid) : Prop where
  id : envelope.get "id" = .ok (some (.str oid))
  type : envelope.get "type" = .ok (some (.str (svc.eventType r.event).text))
  version : envelope.get "version" = .ok none
  aggregateId : envelope.get "aggregateId" = .ok (some (.str aggregateId))
  sequence : envelope.get "sequence" = .ok none
  occurredAt : envelope.get "occurredAt" = .ok none
  correlationId : envelope.get "correlationId" = .ok (some (.str r.correlationId))
  payload : envelope.get "payload" = .ok (some (svc.payload r.event).json)

end Envelope

section Relayed

variable {svc : Service} {aggregateId : String} {sequence : ℕ} {r : EventStoreRow svc}
  {envelope : Json} {oid : Uuid}

theorem RelayedEnvelope.not_complete (h : RelayedEnvelope svc aggregateId r envelope oid) :
    ¬ CompleteEnvelope svc aggregateId sequence r envelope := by
  intro hcomplete
  nomatch h.sequence.symm.trans hcomplete.sequence

theorem relayedEnvelope_json {e : EventEnvelope}
    (h : relayedMessage oid (outboxRow svc aggregateId r) = .event e) :
    RelayedEnvelope svc aggregateId r e.json oid := by
  obtain rfl := Message.event.inj h
  exact ⟨rfl, rfl, rfl, rfl, rfl, rfl, rfl, rfl⟩

end Relayed

/-! ## The outbox rows of a save -/

section Outbox

variable {svc : Service} {id correlationId : String} {ids : ℕ → Uuid} {db db' : Db}

/-- Rows that are there are left there by an insert loop. -/
theorem row_of_appendEvents {version : ℕ} {events : List (UncommittedEvent svc.Event)}
    (h : Tx.Runs db (appendEvents svc id correlationId ids version events) () db') {k : Key}
    {row : Row k} (hrow : Store.row db k = some row) : Store.row db' k = some row := by
  induction events generalizing version db with
  | nil =>
    obtain ⟨-, rfl⟩ := Tx.runs_pure.mp h
    exact hrow
  | cons evt events ih =>
    obtain ⟨u, db₁, hevent, h⟩ := Tx.runs_bind.mp h
    obtain ⟨u, db₂, houtbox, h⟩ := Tx.runs_bind.mp h
    obtain ⟨hfree, rfl⟩ := runs_insert.mp hevent
    obtain ⟨hfree', rfl⟩ := runs_insert.mp houtbox
    exact ih h (Store.row_cons_of_free hfree' (Store.row_cons_of_free hfree hrow))

theorem outbox_of_appendEvents {version : ℕ} {events : List (UncommittedEvent svc.Event)}
    (h : Tx.Runs db (appendEvents svc id correlationId ids version events) () db') {k : ℕ}
    {evt : UncommittedEvent svc.Event} (hevt : events[k]? = some evt) :
    Store.row db' (.outbox svc (ids (version + k + 1))) =
      some (outboxRow svc id (eventRow svc evt.event evt.occurredAt correlationId)) := by
  induction events generalizing version db k with
  | nil => nomatch hevt
  | cons evt' events ih =>
    obtain ⟨u, db₁, hevent, h⟩ := Tx.runs_bind.mp h
    obtain ⟨u, db₂, houtbox, h⟩ := Tx.runs_bind.mp h
    obtain ⟨-, rfl⟩ := runs_insert.mp houtbox
    cases k with
    | zero =>
      obtain rfl := Option.some.inj hevt
      exact row_of_appendEvents h (Store.row_cons_self ..)
    | succ k =>
      rw [show version + (k + 1) + 1 = version + 1 + k + 1 by omega]
      exact ih h hevt

theorem outbox_of_persist {agg : svc.Aggregate}
    (h : Tx.Runs db (persist svc agg correlationId ids) () db') {k : ℕ}
    {evt : UncommittedEvent svc.Event} (hevt : agg.uncommittedEvents[k]? = some evt) :
    Store.row db' (.outbox svc (ids (expectedVersion svc agg + k + 1))) =
      some (outboxRow svc agg.id (eventRow svc evt.event evt.occurredAt correlationId)) := by
  obtain ⟨u, db₁, hevents, hupsert⟩ := Tx.runs_bind.mp h
  have hframe : ∀ oid, Store.row db' (.outbox svc oid) = Store.row db₁ (.outbox svc oid) :=
    fun oid => (writesOnly_projection svc agg).frame hupsert nofun
  exact (hframe _).trans (outbox_of_appendEvents hevents hevt)

end Outbox

/-- A consumer parses what was encoded. -/
def Parses (runtime : JsonRuntime) (db : Db) : Prop :=
  ∀ svc oid (row : OutboxRow) e, Store.row db (.outbox svc oid) = some row →
    relayedMessage oid row = .event e →
    JsonCodec.decode runtime (JsonCodec.encode runtime e.json) = some e.json

/-- `JSON.parse` reads what `JSON.stringify` wrote of an event. -/
theorem parses_jsonRuntime {columnText : Json → String} {toText : ByteArray → String} {db : Db}
    (htext : ∀ text : String, toText text.toUTF8 = text)
    (hdecimal : ∀ svc oid (row : OutboxRow), Store.row db (.outbox svc oid) = some row →
      row.payload.Decimal) : Parses (jsonRuntime columnText toText) db := by
  intro svc oid row e hrow hmessage
  obtain rfl := Message.event.inj hmessage
  show Json.parse (toText (Json.text _).toUTF8) = _
  rw [htext]
  exact parse_text (EventEnvelope.writable_json (hdecimal svc oid row hrow))

/-- **No event arrives complete**: each event of a save is in the event store
and in the outbox, and what a consumer parses of its message is no
`EventEnvelope`. -/
theorem never_complete (runtime : JsonRuntime) (answer : ℕ → (act : Act) → act.Reply)
    (svc : Service) (a a' : svc.Aggregate) (correlationId : String) (db db' : Db)
    (hsave : Saves answer svc a correlationId db a' db') (hparses : Parses runtime db') (k : ℕ)
    (evt : UncommittedEvent svc.Event) (hevt : a.uncommittedEvents[k]? = some evt) :
    ∃ (r : EventStoreRow svc) (oid : Uuid) (row : OutboxRow) (e : EventEnvelope)
      (envelope : Json),
      Store.row db' (.eventStore svc a.id (expectedVersion svc a + k + 1)) = some r ∧
      r.event = evt.event ∧
      Store.row db' (.outbox svc oid) = some row ∧ row = outboxRow svc a.id r ∧
      relayedMessage oid row = .event e ∧
      JsonCodec.decode runtime (JsonCodec.encode runtime e.json) = some envelope ∧
      RelayedEnvelope svc a.id r envelope oid ∧
      ¬ CompleteEnvelope svc a.id (expectedVersion svc a + k + 1) r envelope := by
  obtain ⟨s, s', rfl, rfl, hrun⟩ := hsave
  have hafter := Service.save_after answer a correlationId () s
  unfold Proc.After at hafter
  rw [hrun] at hafter
  obtain ⟨-, ⟨hnil, -⟩ | ⟨ids, hruns⟩⟩ := hafter a' rfl
  · rw [hnil] at hevt
    nomatch hevt
  · have hstored := (appended_of_persist hruns).stored k evt hevt
    have houtbox := outbox_of_persist hruns hevt
    have hrelayed := @relayedEnvelope_json svc a.id
      (eventRow svc evt.event evt.occurredAt correlationId)
      (ids (expectedVersion svc a + k + 1)) _ rfl
    exact ⟨_, _, _, _, _, hstored, rfl, houtbox, rfl, rfl, hparses _ _ _ _ houtbox rfl, hrelayed,
      hrelayed.not_complete⟩

/-! ## A failed reservation -/

def outOfStock : StockAggregate := StockAggregate.failed order₁ "A" "Unknown SKU" "t"

def outOfStockEvent : EventStoreRow .inventory :=
  eventRow .inventory (.inventoryReservationFailed ⟨order₁, "A", "Unknown SKU"⟩) "t" "c"

/-- What is in the database once it is saved. -/
def outOfStockDb : Db := ((Service.inventory.save outOfStock "c").run allWell () ⟨[], []⟩).2.db

theorem outOfStockDb_eq : outOfStockDb =
    [⟨.projection .inventory order₁, ⟨.failed, none, [], some "A", some "Unknown SKU", 1⟩⟩,
      ⟨.outbox .inventory (rowId 0 1), outboxRow .inventory order₁ outOfStockEvent⟩,
      ⟨.eventStore .inventory order₁ 1, outOfStockEvent⟩] := rfl

def outOfStockMessage : EventEnvelope where
  id := (rowId 0 1)
  type := .inventoryReservationFailed
  correlationId := "c"
  aggregateId := order₁
  payload := { orderId := some order₁, sku := some "A", reason := some "Unknown SKU" }

theorem outOfStock_parses : Parses utf8Runtime outOfStockDb := by
  refine parses_jsonRuntime utf8Runtime_toText fun svc oid row hrow => ?_
  rw [outOfStockDb_eq, Store.row_cons_ne _ _ (by simp)] at hrow
  by_cases hkey : (⟨svc, oid⟩ : Service × Uuid) = ⟨.inventory, (rowId 0 1)⟩
  · obtain ⟨rfl, rfl⟩ := Prod.mk.inj hkey
    rw [Store.row_cons_self] at hrow
    obtain rfl := Option.some.inj hrow
    exact nofun
  · rw [Store.row_cons_ne _ _ (by simpa using hkey), Store.row_cons_ne _ _ (by simp)] at hrow
    nomatch hrow

theorem outOfStock_saves :
    Saves allWell .inventory outOfStock "c" [] outOfStock.markEventsAsCommitted outOfStockDb :=
  saves_of_toBool .inventory outOfStock ⟨[], []⟩ rfl

theorem never_complete_outOfStock : ∃ (r : EventStoreRow .inventory) (envelope : Json),
    r.event = .inventoryReservationFailed ⟨order₁, "A", "Unknown SKU"⟩ ∧
      ¬ CompleteEnvelope .inventory order₁ 1 r envelope := by
  obtain ⟨r, oid, row, e, envelope, -, hevent, -, -, -, -, -, hincomplete⟩ :=
    never_complete utf8Runtime allWell .inventory outOfStock _ "c" [] outOfStockDb
      outOfStock_saves outOfStock_parses 0 _ rfl
  exact ⟨r, envelope, hevent, hincomplete⟩

/-- The failed reservation arrives without its sequence. -/
theorem complete_fails : ¬ ∀ (runtime : JsonRuntime) (answer : ℕ → (act : Act) → act.Reply)
    (svc : Service) (a a' : svc.Aggregate) (correlationId : String) (db db' : Db),
    Saves answer svc a correlationId db a' db' → Parses runtime db' →
    ∀ (sequence : ℕ) (r : EventStoreRow svc) (oid : Uuid) (row : OutboxRow) (e : EventEnvelope)
      (envelope : Json), Store.row db' (.eventStore svc a.id sequence) = some r →
      Store.row db' (.outbox svc oid) = some row → row = outboxRow svc a.id r →
      relayedMessage oid row = .event e →
      JsonCodec.decode runtime (JsonCodec.encode runtime e.json) = some envelope →
      CompleteEnvelope svc a.id sequence r envelope := by
  intro hall
  have hcomplete := hall utf8Runtime allWell .inventory outOfStock _ "c" [] outOfStockDb
    outOfStock_saves outOfStock_parses 1 outOfStockEvent (rowId 0 1) _ outOfStockMessage _ rfl rfl rfl
    rfl (outOfStock_parses .inventory (rowId 0 1) _ _ rfl rfl)
  exact (@relayedEnvelope_json .inventory order₁ outOfStockEvent (rowId 0 1) outOfStockMessage
    rfl).not_complete hcomplete

end Saganova
