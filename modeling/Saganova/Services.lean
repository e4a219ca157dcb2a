import Saganova.Concurrency.RowLocks
import Saganova.InventoryService
import Saganova.Orchestrator
import Saganova.PaymentService

/-!
# The whole system

A `Task` is one piece of work of one process: a gateway request, the delivery
of a record to a consumer, or an outbox row being relayed.  `code` is what each
does.

The outbox relay is modelled by what it can do to others: any committed outbox
row may be published, any number of times and in any order.
-/

namespace Saganova

open Concurrency

inductive Task where
  | createOrder (customerId : Uuid) (items : List OrderLineItem) (correlationId : String)
  /-- a record of `saga.commands`, delivered to the consumer of a service -/
  | command (svc : Service) (record : Record CommandEnvelope)
  /-- a record of an event topic, delivered to the orchestrator -/
  | event (record : Record EventEnvelope)
  | relay (svc : Service) (id : Uuid)
  deriving DecidableEq

abbrev Shared := Concurrency.Shared Row Act.Reply Task
abbrev State := Concurrency.State Row Err Act.Reply Task
abbrev System := Concurrency.System Row Err Act.Reply Task
abbrev Guard := Concurrency.Guard Row Err Act.Reply Task
abbrev LockState := Concurrency.LockState Row Err Act.Reply Task

/-- Publish an outbox row as the relay does. -/
def relayRow (svc : Service) (id : Uuid) : Handler Unit := do
  match ← Proc.select fun db => Store.row db (.outbox svc id) with
  | none => pure ()
  | some (row : OutboxRow) =>
    publish row.topic
      (.event { id, type := row.eventType, correlationId := row.correlationId
                aggregateId := row.aggregateId, payload := row.payload })
      row.aggregateId

def consumer : Service → CommandEnvelope → Handler Unit
  | .order => OrderKafkaConsumer.dispatch
  | .payment => PaymentKafkaConsumer.dispatch
  | .inventory => InventoryKafkaConsumer.dispatch

def code : Task → Handler Unit
  | .createOrder customerId items correlationId =>
    OrdersService.createOrder customerId items correlationId
  | .command svc record => eachMessage (consumer svc) record
  | .event record => eachMessage SagaEventConsumer.dispatch record
  | .relay svc id => relayRow svc id

/-- The database's own failures: any error but those the code's statements raise. -/
def databaseFault (e : Err) : Prop := ∃ message, e = .queryFailed message

/-- A message is on its topic once its publish was attempted: one that was
reported as failed may have been appended all the same. -/
def Published (s : Shared) (topic : Topic) (message : Message) : Prop :=
  ∃ task key r, Event.acted task (.publish topic message key) r ∈ s.trace

/-- The broker confirmed the message. -/
def Confirmed (s : Shared) (topic : Topic) (message : Message) : Prop :=
  ∃ task key, Event.acted task (.publish topic message key) (.ok ()) ∈ s.trace

/-- The orchestrator's consumer group committed the offset after a record. -/
def EventAcknowledged (s : Shared) (record : Record EventEnvelope) : Prop :=
  ∃ record', Event.acted (.event record')
    (.commitOffsets record.topic record.partition (record.offset + 1)) (.ok ()) ∈ s.trace

end Saganova
