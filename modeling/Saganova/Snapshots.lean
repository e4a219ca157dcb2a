import Saganova.Domain.Order
import Saganova.Uuids

/-!
# Snapshots

`libs/event-sourcing-core/src/snapshot.strategy.ts`, for any aggregate: the
state is a fold, so a snapshot and the events after it replay to the state of
the whole stream.  The version is set by the replay alone: with no event after
the snapshot it stays that of a new instance (`snapshotReplay`).
-/

namespace Saganova

variable {σ η ε : Type}

structure Snapshot (σ : Type) where
  aggregateId : String
  version : ℕ
  state : σ
  takenAt : Time

structure SnapshotStrategy where
  everyNEvents : ℕ := 50

namespace SnapshotStrategy

def shouldSnapshot (strategy : SnapshotStrategy) (currentVersion : ℕ) : Bool :=
  currentVersion > 0 && currentVersion % strategy.everyNEvents = 0

def tailToReplay (allEvents : List (StoredEvent η)) :
    Option (Snapshot σ) → List (StoredEvent η)
  | none => allEvents
  | some snapshot => allEvents.filter fun e => e.sequence > snapshot.version

end SnapshotStrategy

/-- An instance with the snapshot's state: its version is private, and starts at 0. -/
def Snapshot.instance (snapshot : Snapshot σ) : AggregateRoot σ η :=
  { id := snapshot.aggregateId, state := snapshot.state }

namespace AggregateRoot

/-- `hydrate` with a `when` that throws at events it does not know. -/
def tryHydrate (reduce : σ → η → Except ε σ) (root : AggregateRoot σ η)
    (history : List (StoredEvent η)) : Except ε (AggregateRoot σ η) :=
  history.foldlM (fun a evt => do
    let state ← reduce a.state evt.event
    pure { a with state, version := evt.sequence }) root

/-- It is `hydrate` where `when` throws nothing. -/
theorem tryHydrate_ok (reduce : σ → η → σ) (root : AggregateRoot σ η)
    (history : List (StoredEvent η)) :
    tryHydrate (fun state event => (.ok (reduce state event) : Except ε σ)) root history =
      .ok (hydrate reduce root history) := by
  induction history generalizing root with
  | nil => rfl
  | cons evt history ih => exact ih _

/-- The state is a fold, and the version that of the last event, if there is any. -/
theorem tryHydrate_eq (reduce : σ → η → Except ε σ) (root : AggregateRoot σ η)
    (history : List (StoredEvent η)) :
    tryHydrate reduce root history =
      ((history.map (·.event)).foldlM reduce root.state).map fun state =>
        { root with state, version := (history.getLast?.map (·.sequence)).getD root.version } := by
  induction history generalizing root with
  | nil => rfl
  | cons evt history ih =>
    have hlast : ((evt :: history).getLast?.map (·.sequence)).getD root.version =
        (history.getLast?.map (·.sequence)).getD evt.sequence := by
      rw [List.getLast?_cons]
      cases history.getLast? <;> rfl
    rw [hlast]
    unfold tryHydrate at ih ⊢
    rw [List.foldlM_cons, List.map_cons, List.foldlM_cons]
    cases reduce root.state evt.event with
    | error e => rfl
    | ok state => exact ih _

end AggregateRoot

/-! ## The tail -/

/-- The sequences are 1, ..., n. -/
def Sequenced (allEvents : List (StoredEvent η)) : Prop :=
  ∀ k e, allEvents[k]? = some e → e.sequence = k + 1

theorem tailToReplay_eq {allEvents : List (StoredEvent η)} (h : Sequenced allEvents)
    (snapshot : Snapshot σ) :
    SnapshotStrategy.tailToReplay allEvents (some snapshot) = allEvents.drop snapshot.version := by
  have hsplit := (List.take_append_drop snapshot.version allEvents).symm
  have hhead : (allEvents.take snapshot.version).filter
      (fun e => decide (e.sequence > snapshot.version)) = [] := by
    rw [List.filter_eq_nil_iff]
    intro e he
    obtain ⟨k, hk⟩ := List.mem_iff_getElem?.mp he
    rw [List.getElem?_take] at hk
    split at hk
    · have hsequence := h k e hk
      simp
      omega
    · nomatch hk
  have htail : (allEvents.drop snapshot.version).filter
      (fun e => decide (e.sequence > snapshot.version)) = allEvents.drop snapshot.version := by
    rw [List.filter_eq_self]
    intro e he
    obtain ⟨k, hk⟩ := List.mem_iff_getElem?.mp he
    rw [List.getElem?_drop] at hk
    have hsequence := h _ e hk
    simp
    omega
  calc SnapshotStrategy.tailToReplay allEvents (some snapshot)
      = (allEvents.take snapshot.version ++ allEvents.drop snapshot.version).filter
          (fun e => decide (e.sequence > snapshot.version)) := by rw [← hsplit]; rfl
    _ = allEvents.drop snapshot.version := by rw [List.filter_append, hhead, htail, List.nil_append]

/-- The snapshot of an aggregate after the first events of its stream. -/
structure Snapshot.Of (reduce : σ → η → Except ε σ) (blank : AggregateRoot σ η)
    (allEvents : List (StoredEvent η)) (snapshot : Snapshot σ) : Prop where
  aggregateId : snapshot.aggregateId = blank.id
  version : snapshot.version ≤ allEvents.length
  state : ∃ a, AggregateRoot.tryHydrate reduce blank (allEvents.take snapshot.version) = .ok a ∧
    snapshot.state = a.state

/-- **Snapshot and tail against the full replay.**  The state is the same; the
version is lost exactly where there is no event after the snapshot. -/
theorem snapshotReplay (reduce : σ → η → Except ε σ) (id : String) (blankState : σ)
    (allEvents : List (StoredEvent η)) (snapshot : Snapshot σ) (full : AggregateRoot σ η)
    (hsequenced : Sequenced allEvents)
    (hfull : AggregateRoot.tryHydrate reduce { id, state := blankState } allEvents = .ok full)
    (hsnapshot : snapshot.Of reduce { id, state := blankState } allEvents) :
    ∃ tail, AggregateRoot.tryHydrate reduce snapshot.instance
        (SnapshotStrategy.tailToReplay allEvents (some snapshot)) = .ok tail ∧
      tail.state = full.state ∧
      (tail.version = full.version ↔ snapshot.version < allEvents.length ∨ allEvents = []) := by
  obtain ⟨a, hhead, hstate⟩ := hsnapshot.state
  have hle := hsnapshot.version
  rw [AggregateRoot.tryHydrate_eq] at hfull hhead
  rw [tailToReplay_eq hsequenced, AggregateRoot.tryHydrate_eq]
  -- the fold goes over the snapshot's state
  have hfold : (allEvents.map (·.event)).foldlM reduce blankState =
      ((allEvents.drop snapshot.version).map (·.event)).foldlM reduce snapshot.state := by
    cases hfirst : ((allEvents.take snapshot.version).map (·.event)).foldlM reduce blankState with
    | error e =>
      rw [hfirst] at hhead
      nomatch hhead
    | ok state =>
      rw [hfirst] at hhead
      obtain rfl := Except.ok.inj hhead
      rw [hstate]
      conv_lhs => rw [← List.take_append_drop snapshot.version allEvents]
      rw [List.map_append, List.foldlM_append, hfirst]
      rfl
  rw [hfold] at hfull
  cases htail : ((allEvents.drop snapshot.version).map (·.event)).foldlM reduce snapshot.state with
  | error e =>
    rw [htail] at hfull
    nomatch hfull
  | ok state =>
    rw [htail] at hfull
    obtain rfl := Except.ok.inj hfull
    refine ⟨{ id := snapshot.aggregateId, state, version :=
      ((allEvents.drop snapshot.version).getLast?.map (·.sequence)).getD 0 }, ?_, rfl, ?_⟩
    · rw [Snapshot.instance, htail]
      rfl
    show ((allEvents.drop snapshot.version).getLast?.map (·.sequence)).getD 0 =
      (allEvents.getLast?.map (·.sequence)).getD 0 ↔ _
    rcases Nat.lt_or_eq_of_le hle with hlt | heq
    · -- the last event is in the tail
      have hlast : (allEvents.drop snapshot.version).getLast? = allEvents.getLast? := by
        rw [List.getLast?_drop, if_neg (by omega)]
      rw [hlast]
      exact ⟨fun _ => .inl hlt, fun _ => rfl⟩
    · rw [heq, List.drop_length]
      cases hlast : allEvents.getLast? with
      | none => simp [List.getLast?_eq_none_iff.mp hlast]
      | some e =>
        have hne : allEvents ≠ [] := by
          rintro rfl
          nomatch hlast
        rw [List.getLast?_eq_getElem?] at hlast
        have hsequence := hsequenced _ e hlast
        simp [hsequence, hne]

/-! ## An order and its snapshots -/

def orderWhen (state : OrderState) (event : OrderEvent) : Except Err OrderState :=
  .ok (OrderAggregate.when state event)

/-- Created and confirmed. -/
def confirmedOrderEvents : List (StoredEvent OrderEvent) :=
  [{ aggregateId := order₁, aggregateType := "Order", sequence := 1, occurredAt := "t₁"
     correlationId := "c", event := .orderCreated
      { orderId := order₁, customerId := customer₁, items := [], totalCents := 0 } },
    { aggregateId := order₁, aggregateType := "Order", sequence := 2, occurredAt := "t₂"
      correlationId := "c", event := .orderConfirmed { orderId := order₁, paymentId := payment₁ } }]

def createdSnapshot : Snapshot OrderState where
  aggregateId := order₁
  version := 1
  state := { status := .created, customerId := customer₁, items := [], totalCents := 0 }
  takenAt := "t₃"

def confirmedSnapshot : Snapshot OrderState where
  aggregateId := order₁
  version := 2
  state :=
    { status := .confirmed, customerId := customer₁, items := [], totalCents := 0
      paymentId := some payment₁ }
  takenAt := "t₃"

theorem confirmedOrderEvents_sequenced : Sequenced confirmedOrderEvents := by
  intro k e hk
  match k with
  | 0 =>
    obtain rfl := Option.some.inj hk
    rfl
  | 1 =>
    obtain rfl := Option.some.inj hk
    rfl
  | k + 2 => nomatch hk

/-- The snapshot of the created order, and the confirmation after it. -/
theorem snapshotReplay_created : ∃ full tail,
    AggregateRoot.tryHydrate orderWhen (OrderAggregate.blank order₁) confirmedOrderEvents = .ok full ∧
    AggregateRoot.tryHydrate orderWhen createdSnapshot.instance
      (SnapshotStrategy.tailToReplay confirmedOrderEvents (some createdSnapshot)) = .ok tail ∧
    tail.state = full.state ∧ tail.version = full.version := by
  obtain ⟨tail, htail, hstate, hversion⟩ := snapshotReplay orderWhen order₁ OrderAggregate.blankState
    confirmedOrderEvents createdSnapshot _ confirmedOrderEvents_sequenced rfl
    ⟨rfl, by decide, _, rfl, rfl⟩
  exact ⟨_, tail, rfl, htail, hstate, hversion.mpr (by decide)⟩

/-- A snapshot of every second event, and nothing after it: version 0 for 2. -/
theorem snapshotReplay_fails :
    SnapshotStrategy.shouldSnapshot { everyNEvents := 2 } confirmedSnapshot.version = true ∧
    confirmedSnapshot.Of orderWhen (OrderAggregate.blank order₁) confirmedOrderEvents ∧
    ¬ ∃ full tail,
      AggregateRoot.tryHydrate orderWhen (OrderAggregate.blank order₁) confirmedOrderEvents =
        .ok full ∧
      AggregateRoot.tryHydrate orderWhen confirmedSnapshot.instance
        (SnapshotStrategy.tailToReplay confirmedOrderEvents (some confirmedSnapshot)) = .ok tail ∧
      tail.state = full.state ∧ tail.version = full.version := by
  refine ⟨rfl, ⟨rfl, by decide, _, rfl, rfl⟩, ?_⟩
  rintro ⟨full, tail, hfull, htail, -, hversion⟩
  obtain rfl := Except.ok.inj hfull
  obtain rfl := Except.ok.inj htail
  nomatch hversion

end Saganova
