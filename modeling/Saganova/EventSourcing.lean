import Saganova.Contracts

/-!
# Event-sourced aggregates

`libs/event-sourcing-core`: an aggregate is an id, a state folded from events
by a reducer `when`, the number of events applied, and the events not yet
persisted.  Commands call `apply`; the repository calls `hydrate`.

A loaded aggregate has the state its events fold to (`hydrate_state`) and
nothing to persist (`hydrate_uncommittedEvents`).
-/

namespace Saganova

/-- An event applied to an aggregate and not yet persisted. -/
structure UncommittedEvent (η : Type) where
  event : η
  occurredAt : Time
  deriving DecidableEq, Repr

structure StoredEvent (η : Type) where
  aggregateId : String
  aggregateType : String
  sequence : ℕ
  event : η
  occurredAt : Time
  correlationId : String
  deriving DecidableEq, Repr

structure AggregateRoot (σ η : Type) where
  id : String
  state : σ
  version : ℕ := 0
  uncommittedEvents : List (UncommittedEvent η) := []
  deriving DecidableEq, Repr

namespace AggregateRoot

section Reducer

variable {σ η : Type} (reduce : σ → η → σ)

/-- `apply`: reduce the event and queue it; `now` is `new Date()`. -/
def apply (a : AggregateRoot σ η) (event : η) (now : Time) : AggregateRoot σ η where
  id := a.id
  state := reduce a.state event
  version := a.version + 1
  uncommittedEvents := a.uncommittedEvents ++ [⟨event, now⟩]

def hydrate (root : AggregateRoot σ η) (history : List (StoredEvent η)) : AggregateRoot σ η :=
  history.foldl
    (fun a evt => { a with state := reduce a.state evt.event, version := evt.sequence }) root

def markEventsAsCommitted (a : AggregateRoot σ η) : AggregateRoot σ η :=
  { a with uncommittedEvents := [] }

@[simp] theorem hydrate_nil (root : AggregateRoot σ η) : hydrate reduce root [] = root := rfl

@[simp] theorem hydrate_id (root : AggregateRoot σ η) (history : List (StoredEvent η)) :
    (hydrate reduce root history).id = root.id := by
  unfold hydrate
  induction history generalizing root with
  | nil => rfl
  | cons evt history ih => exact ih _

@[simp] theorem hydrate_uncommittedEvents (root : AggregateRoot σ η)
    (history : List (StoredEvent η)) :
    (hydrate reduce root history).uncommittedEvents = root.uncommittedEvents := by
  unfold hydrate
  induction history generalizing root with
  | nil => rfl
  | cons evt history ih => exact ih _

theorem hydrate_state (root : AggregateRoot σ η) (history : List (StoredEvent η)) :
    (hydrate reduce root history).state = (history.map (·.event)).foldl reduce root.state := by
  unfold hydrate
  induction history generalizing root with
  | nil => rfl
  | cons evt history ih => exact ih _

end Reducer

end AggregateRoot

end Saganova
