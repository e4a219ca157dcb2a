import Saganova.CheckoutReturns
import Saganova.DeliveryCommits

/-!
# What is outstanding runs out

However the outstanding messages and outbox rows are delivered, whatever the
provider answers, and however often what was delivered comes again, they run
out (`checkoutDrains`).  A delivery makes at most one new one outstanding:
handling a command saves one event at most, relaying it publishes that, and
handling an event publishes a command only when it moves a saga on, which
happens three times at most.
-/

namespace Saganova

open Concurrency Decision

/-! ## What is left -/

/-- The task has not been done yet. -/
inductive Checkout.Outstanding (c : Checkout) : Task → Prop
  | command {svc : Service} {r : Record CommandEnvelope} :
      Published c.shared r.topic (.command r.value) → (svc, r.value) ∉ c.commandsHandled →
      c.Outstanding (.command svc r)
  | event {r : Record EventEnvelope} : Published c.shared r.topic (.event r.value) →
      r.value ∉ c.eventsHandled → c.Outstanding (.event r)
  | relay {svc : Service} {oid : Uuid} : (Store.row c.shared.db (.outbox svc oid)).isSome →
      (svc, oid) ∉ c.publishedAt → c.Outstanding (.relay svc oid)

/-- The outbox row at the key. -/
def Key.outboxed : Key → Option (Service × Uuid)
  | .outbox svc oid => some (svc, oid)
  | _ => none

def outboxIds (db : Db) : Finset (Service × Uuid) :=
  (db.filterMap fun entry => entry.1.outboxed).toFinset

def Message.event? : Message → Option EventEnvelope
  | .event e => some e
  | .command _ => none

/-- What relaying the row publishes. -/
def relayedEvent (db : Db) : Service × Uuid → Option EventEnvelope
  | (svc, oid) => (Store.row db (.outbox svc oid)).bind fun row => (relayedMessage oid row).event?

/-- The events of the outbox rows, relayed or not. -/
def eventsSaved (db : Db) : Finset EventEnvelope :=
  (outboxIds db).biUnion fun p => (relayedEvent db p).toFinset

/-- The order that a CreateOrder command asks for. -/
def CommandEnvelope.requested (c : CommandEnvelope) : Option Uuid :=
  if c.type = .createOrder then c.payload.orderId else none

/-- The orders that were asked for. -/
def ordersRequested (s : Shared) : Finset Uuid :=
  ((commandsOf s).filterMap (·.requested)).toFinset

/-- How often the saga of the row was moved on. -/
def movesMade : Option SagaInstanceRow → ℕ
  | none => 0
  | some row => row.stage + 1

namespace Checkout

variable (c : Checkout)

def commandsLeft : Finset (Service × CommandEnvelope) :=
  (services.toFinset ×ˢ (commandsOf c.shared).toFinset).filter (· ∉ c.commandsHandled)

def eventsLeft : Finset EventEnvelope := (eventsSaved c.shared.db).filter (· ∉ c.eventsHandled)

def rowsLeft : Finset (Service × Uuid) := (outboxIds c.shared.db).filter (· ∉ c.publishedAt)

/-- How often sagas can still be moved on. -/
def movesLeft : ℕ := ∑ o ∈ ordersRequested c.shared, (3 - movesMade (sagaRow c.shared o))

/-- A bound on the deliveries to come: a command leads to two others, that of a
row and that of its event, and a move to those of a command to three services. -/
def work : ℕ := 9 * c.movesLeft + 3 * c.commandsLeft.card + c.rowsLeft.card + c.eventsLeft.card

end Checkout

section Left

variable {c : Checkout} {db : Db} {s : Shared}

/-- What is read off the keys of the rows there are. -/
theorem mem_filterMap_keys {α : Type} [DecidableEq α] {f : Key → Option α} {a : α} :
    a ∈ (db.filterMap fun entry => f entry.1).toFinset ↔
      ∃ k, (Store.row db k).isSome ∧ f k = some a := by
  unfold Store.row
  simp only [List.dlookup_isSome, List.mem_toFinset, List.mem_filterMap]
  constructor
  · rintro ⟨⟨k, row⟩, hmem, hsome⟩
    exact ⟨k, List.mem_map.mpr ⟨⟨k, row⟩, hmem, rfl⟩, hsome⟩
  · rintro ⟨k, hkey, hsome⟩
    obtain ⟨⟨k, row⟩, hmem, rfl⟩ := List.mem_map.mp hkey
    exact ⟨_, hmem, hsome⟩

theorem mem_outboxIds {svc : Service} {oid : Uuid} :
    (svc, oid) ∈ outboxIds db ↔ (Store.row db (.outbox svc oid)).isSome := by
  refine mem_filterMap_keys.trans ⟨?_, fun h => ⟨_, h, rfl⟩⟩
  rintro ⟨k, hrow, hsome⟩
  unfold Key.outboxed at hsome
  split at hsome
  · obtain ⟨rfl, rfl⟩ := Prod.mk.inj (Option.some.inj hsome)
    exact hrow
  · cases hsome

theorem mem_eventsSaved {e : EventEnvelope} : e ∈ eventsSaved db ↔ ∃ svc oid row,
    Store.row db (.outbox svc oid) = some row ∧ relayedMessage oid row = .event e := by
  unfold eventsSaved
  rw [Finset.mem_biUnion]
  constructor
  · rintro ⟨⟨svc, oid⟩, -, hmem⟩
    obtain ⟨row, hrow, hevent⟩ := Option.bind_eq_some_iff.mp (Option.mem_toFinset.mp hmem)
    exact ⟨svc, oid, row, hrow, congrArg Message.event (Option.some.inj hevent)⟩
  · rintro ⟨svc, oid, row, hrow, heq⟩
    refine ⟨(svc, oid), mem_outboxIds.mpr (by rw [hrow]; rfl), Option.mem_toFinset.mpr ?_⟩
    exact Option.bind_eq_some_iff.mpr ⟨row, hrow, by rw [heq]; rfl⟩

theorem mem_ordersRequested {o : Uuid} : o ∈ ordersRequested s ↔
    ∃ e ∈ commandsOf s, e.type = .createOrder ∧ e.payload.orderId = some o := by
  unfold ordersRequested CommandEnvelope.requested
  rw [List.mem_toFinset, List.mem_filterMap]
  constructor
  · rintro ⟨e, hmem, hsome⟩
    split at hsome
    · exact ⟨e, hmem, ‹_›, hsome⟩
    · cases hsome
  · rintro ⟨e, hmem, htype, ho⟩
    exact ⟨e, hmem, by rw [if_pos htype, ho]⟩

theorem ordersRequested_congr {s' : Shared} (h : ∀ e, e.type = .createOrder →
    (e ∈ commandsOf s' ↔ e ∈ commandsOf s)) : ordersRequested s' = ordersRequested s := by
  ext o
  rw [mem_ordersRequested, mem_ordersRequested]
  exact exists_congr fun e => ⟨fun ⟨hmem, htype, ho⟩ => ⟨(h e htype).mp hmem, htype, ho⟩,
    fun ⟨hmem, htype, ho⟩ => ⟨(h e htype).mpr hmem, htype, ho⟩⟩

theorem Checkout.Outstanding.ready {t : Task} (h : c.Outstanding t) : c.Ready t := by
  cases h with
  | command hpublished _ => exact hpublished
  | event hpublished _ => exact hpublished
  | relay hsome _ => exact hsome

/-- Nothing is outstanding. -/
theorem quiet_iff : Quiet c ↔ ∀ t, ¬ c.Outstanding t := by
  constructor
  · intro hquiet t h
    cases h with
    | command hpublished hnot => exact hnot (hquiet.commands _ _ hpublished _)
    | event hpublished hnot => exact hnot (hquiet.events _ _ hpublished)
    | relay hsome hnot => exact hnot (hquiet.outbox _ _ hsome)
  · intro h
    constructor
    · intro topic e hpublished svc
      by_contra hnot
      exact h (.command svc ⟨topic, 0, 0, e⟩) (.command hpublished hnot)
    · intro topic e hpublished
      by_contra hnot
      exact h (.event ⟨topic, 0, 0, e⟩) (.event hpublished hnot)
    · intro svc oid hsome
      by_contra hnot
      exact h (.relay svc oid) (.relay hsome hnot)

end Left

/-! ## What a task adds -/

section Run

variable {answer : ℕ → (a : Act) → Act.Reply a} {t : Task} {s : Shared}

/-- Only the orchestrator and the gateway publish commands. -/
theorem run_commandsOf (hdb : Consistent s.db) (hprompt : PromptInv s)
    (hprompt' : PromptInv (Proc.run answer t (code t) s).2)
    (hrequest : ¬ t.IsRequest) (hevent : ∀ r, t ≠ .event r) (e : CommandEnvelope) :
    e ∈ commandsOf (Proc.run answer t (code t) s).2 ↔ e ∈ commandsOf s := by
  have hiff : ∀ {s}, PromptInv s → (e ∈ commandsOf s ↔ ∃ topic, Published s topic (.command e)) := by
    intro s hs
    refine ⟨fun h => ?_, fun ⟨topic, h⟩ => hs.commands topic e h⟩
    obtain ⟨task, key, hmem⟩ := mem_commandsOf.mp h
    exact ⟨_, task, key, _, hmem⟩
  obtain ⟨hgrow, hkeep⟩ := code_keeps
    (I := fun s' => ∀ topic, Published s' topic (.command e) → Published s topic (.command e)) hdb
    (fun _ h => h) fun seen s₁ s₂ _ hI hstep topic => by
      rintro ⟨task, key, r, hmem⟩
      obtain hold | ⟨rfl, hallowed, -⟩ := hstep.new_event hmem
      · exact hI topic ⟨_, _, _, hold⟩
      · obtain ⟨-, ⟨_, _, _, heq, -⟩ | ⟨r, _, _, heq, -⟩⟩ := MayPublish.of_command hallowed
        · obtain rfl : t = .createOrder _ _ _ := heq
          exact (hrequest trivial).elim
        · exact absurd heq (hevent r)
  rw [hiff hprompt, hiff hprompt']
  exact ⟨fun ⟨topic, h⟩ => ⟨topic, hkeep topic h⟩, fun ⟨topic, h⟩ => ⟨topic, h.grow hgrow⟩⟩

/-- Only outbox rows are published as events. -/
def RelayedOnly (s : Shared) : Prop :=
  ∀ topic e, Published s topic (.event e) → e ∈ eventsSaved s.db

theorem RelayedOnly.step {seen : Db} {s' : Shared} (hs : RelayedOnly s) (hdb : Consistent s.db)
    (h : ServiceStep t seen s s') : RelayedOnly s' := by
  rintro topic e ⟨task, key, r, hmem⟩
  have hgrow := h.grows hdb
  have hrow : ∃ svc oid row, Store.row s.db (.outbox svc oid) = some row ∧
      relayedMessage oid row = .event e := by
    obtain hold | ⟨rfl, hallowed, -⟩ := h.new_event hmem
    · exact mem_eventsSaved.mp (hs topic e ⟨_, _, _, hold⟩)
    · obtain ⟨svc, oid, row, -, hrow, heq⟩ := MayPublish.of_event hallowed
      exact ⟨svc, oid, row, hrow, heq⟩
  obtain ⟨svc, oid, row, hrow, heq⟩ := hrow
  exact mem_eventsSaved.mpr ⟨svc, oid, row, hgrow.outbox hrow, heq⟩

theorem CheckoutReach.relayedOnly {c : Checkout} (h : CheckoutReach c) : RelayedOnly c.shared := by
  have hrun : ∀ {c : Checkout} (answer t), CheckoutReach c → RelayedOnly c.shared →
      RelayedOnly (c.run answer t) := fun answer t h hc =>
    (code_keeps h.sound.consistent hc fun _ _ _ hdb hI hstep => hI.step hdb hstep).2
  induction h with
  | start _ => exact fun topic e hpublished => absurd hpublished (not_published rfl topic _)
  | step h hstep ih =>
    cases hstep with
    | handled ht =>
      rw [Checkout.handle_shared]
      exact hrun _ _ h ih
    | unmarked ht => exact hrun _ _ h ih

/-- The outbox rows since `s`, one at most for each transaction; only commands bring them. -/
def OutboxedSince (s : Shared) (t : Task) (s' : Shared) : Prop :=
  ∃ added : Finset (Service × Uuid), outboxIds s'.db ⊆ outboxIds s.db ∪ added ∧
    (added.Nonempty → ∃ svc r, t = .command svc r) ∧
    added.card + s.trace.countP Event.isCommit ≤ s'.trace.countP Event.isCommit

theorem OutboxedSince.refl (s : Shared) (t : Task) : OutboxedSince s t s :=
  ⟨∅, Finset.subset_union_left, fun h => absurd h Finset.not_nonempty_empty, by simp⟩

theorem OutboxedSince.step {seen : Db} {s₁ s₂ : Shared} (hs : OutboxedSince s t s₁)
    (h : ServiceStep t seen s₁ s₂) : OutboxedSince s t s₂ := by
  obtain ⟨added, hsub, hcommand, hcard⟩ := hs
  cases h with
  | acted a res _ => exact ⟨added, hsub, hcommand, by simpa [Event.isCommit] using hcard⟩
  | @appended svc id rows r oid db w happ hstock hsaved _ =>
    refine ⟨{(svc, oid)} ∪ added, ?_, fun _ => ?_, ?_⟩
    · rintro ⟨svc', oid'⟩ hmem
      rw [mem_outboxIds] at hmem
      by_cases heq : svc' = svc ∧ oid' = oid
      · obtain ⟨rfl, rfl⟩ := heq
        simp
      · have hrow : (Store.row s₁.db (.outbox svc' oid')).isSome := by
          rw [← hstock.onlyStock _ (by simp), ← hsaved.outbox_ne heq]
          exact hmem
        obtain hold | hnew := Finset.mem_union.mp (hsub (mem_outboxIds.mpr hrow))
        · exact Finset.mem_union_left _ hold
        · exact Finset.mem_union_right _ (Finset.mem_union_right _ hnew)
    · obtain ⟨record, ht⟩ := happ.task
      exact ⟨svc, record, ht⟩
    · have hunion := Finset.card_union_le {(svc, oid)} added
      rw [Finset.card_singleton] at hunion
      rw [Shared.commit_trace, List.countP_cons]
      show _ ≤ _ + 1
      omega
  | @sagaSaved r orderId decision row _ _ _ =>
    refine ⟨added, ?_, hcommand, hcard.trans ?_⟩
    · rintro ⟨svc', oid'⟩ hmem
      rw [mem_outboxIds, Shared.commit_db] at hmem
      have hsame : Store.row (⟨.sagaInstance orderId, row⟩ :: s₁.db) (.outbox svc' oid') =
          Store.row s₁.db (.outbox svc' oid') :=
        @Store.row_cons_ne _ _ _ s₁.db _ (.sagaInstance orderId) row (by simp)
      exact hsub (mem_outboxIds.mpr (hsame ▸ hmem))
    · rw [Shared.commit_trace, List.countP_cons]
      exact Nat.le_add_right _ _

variable (answer t) in
/-- A task leaves one outbox row more at most. -/
theorem run_outboxIds (hdb : Consistent s.db) : ∃ added : Finset (Service × Uuid),
    outboxIds (Proc.run answer t (code t) s).2.db ⊆ outboxIds s.db ∪ added ∧
    (added.Nonempty → ∃ svc r, t = .command svc r) ∧ added.card ≤ 1 := by
  obtain ⟨-, added, hsub, hcommand, hcard⟩ := code_keeps (I := OutboxedSince s t) hdb
    (OutboxedSince.refl s t) fun _ _ _ _ hI hstep => hI.step hstep
  have hcommits := (oneCommit_code t).countP_run answer t s
  exact ⟨added, hsub, hcommand, by omega⟩

/-- And none if it is not a command. -/
theorem run_outboxIds_of (hdb : Consistent s.db) (ht : ∀ svc r, t ≠ .command svc r) :
    outboxIds (Proc.run answer t (code t) s).2.db ⊆ outboxIds s.db := by
  obtain ⟨added, hsub, hcommand, -⟩ := run_outboxIds answer t hdb
  obtain rfl | hadded := added.eq_empty_or_nonempty
  · rwa [Finset.union_empty] at hsub
  · obtain ⟨svc, r, heq⟩ := hcommand hadded
    exact absurd heq (ht svc r)

end Run

/-! ## What an event adds -/

section Moves

variable {e : EventEnvelope} {o : Uuid} {st : Stamps} {row row' : Option SagaInstanceRow}
  {sent : List CommandEnvelope}

theorem movesMade_le (hrow : ∀ r, row = some r → r.currentStepIndex ≤ 1) : movesMade row ≤ 3 := by
  cases row with
  | none => exact Nat.zero_le 3
  | some r => exact Nat.succ_le_succ (SagaInstanceRow.stage_le (hrow r rfl))

/-- **A command is published only when the saga is moved on**, and then it is one. -/
theorem Reaction.moves (h : Reaction (.ok ()) e o st row row' sent)
    (hrow : ∀ r, row = some r → r.currentStepIndex ≤ 1) :
    sent = [] ∧ movesMade row ≤ movesMade row' ∨
    (∃ c, sent = [c]) ∧ movesMade row < movesMade row' := by
  have hopen : ∀ {r : SagaInstanceRow}, row = some r → r.Open → r.stage < 2 := by
    intro r hr hr'
    rw [SagaInstanceRow.stage_open hr']
    exact Nat.lt_succ_of_le (hrow r hr)
  cases h with
  | nothing => exact .inl ⟨rfl, le_refl _⟩
  | started => exact .inr ⟨⟨_, rfl⟩, Nat.succ_pos _⟩
  | resaved => exact .inl ⟨rfl, le_refl _⟩
  | advanced _ hr hindex =>
    refine .inr ⟨⟨_, rfl⟩, Nat.succ_lt_succ ?_⟩
    rw [SagaInstanceRow.stage_open hr, hindex, SagaInstanceRow.stage_advancedRow]
    exact Nat.zero_lt_one
  | completed hr =>
    refine .inr ⟨⟨_, rfl⟩, Nat.succ_lt_succ ?_⟩
    rw [SagaInstanceRow.stage_completedRow]
    exact hopen rfl hr
  | cancelled hr =>
    refine .inr ⟨⟨_, rfl⟩, Nat.succ_lt_succ ?_⟩
    rw [SagaInstanceRow.stage_cancelledRow]
    exact hopen rfl hr

end Moves

/-! ## Less is left after each delivery -/

/-- No message or row is lost, and what was handled counts as handled. -/
structure Checkout.Grows (c c' : Checkout) : Prop where
  shared : Saganova.Grows c.shared c'.shared
  commands : c.commandsHandled ⊆ c'.commandsHandled
  events : c.eventsHandled ⊆ c'.eventsHandled
  rows : c.publishedAt ⊆ c'.publishedAt

section Grown

variable {c c' : Checkout} {answer : ℕ → (a : Act) → Act.Reply a} {t : Task}

theorem CheckoutReach.grows (h : CheckoutReach c) : c.Grows (c.handle answer t) where
  shared := by
    rw [Checkout.handle_shared]
    exact Checkout.grows_run h.sound.consistent
  commands := by cases t <;> simp [Checkout.handle]
  events := by cases t <;> simp [Checkout.handle]
  rows := by cases t <;> simp [Checkout.handle]

theorem mem_commandsLeft {svc : Service} {e : CommandEnvelope} :
    (svc, e) ∈ c.commandsLeft ↔ e ∈ commandsOf c.shared ∧ (svc, e) ∉ c.commandsHandled := by
  simp [Checkout.commandsLeft, mem_services]

theorem mem_eventsLeft {e : EventEnvelope} :
    e ∈ c.eventsLeft ↔ e ∈ eventsSaved c.shared.db ∧ e ∉ c.eventsHandled := Finset.mem_filter

theorem mem_rowsLeft {p : Service × Uuid} :
    p ∈ c.rowsLeft ↔ p ∈ outboxIds c.shared.db ∧ p ∉ c.publishedAt := Finset.mem_filter

/-- The rows that were added are left, and their events. -/
theorem Checkout.Grows.left_subset (hgrows : c.Grows c') {added : Finset (Service × Uuid)}
    (hsub : outboxIds c'.shared.db ⊆ outboxIds c.shared.db ∪ added) :
    c'.rowsLeft ⊆ c.rowsLeft ∪ added ∧
      c'.eventsLeft ⊆ c.eventsLeft ∪ added.biUnion fun p => (relayedEvent c'.shared.db p).toFinset := by
  constructor
  · intro p hmem
    obtain ⟨hrow, hnot⟩ := mem_rowsLeft.mp hmem
    obtain hold | hnew := Finset.mem_union.mp (hsub hrow)
    · exact Finset.mem_union_left _ (mem_rowsLeft.mpr ⟨hold, fun h => hnot (hgrows.rows h)⟩)
    · exact Finset.mem_union_right _ hnew
  · intro e hmem
    obtain ⟨hsaved, hnot⟩ := mem_eventsLeft.mp hmem
    obtain ⟨svc, oid, row, hrow, heq⟩ := mem_eventsSaved.mp hsaved
    obtain hold | hnew := Finset.mem_union.mp (hsub (mem_outboxIds.mpr (by rw [hrow]; rfl)))
    · refine Finset.mem_union_left _ (mem_eventsLeft.mpr ⟨?_, fun h => hnot (hgrows.events h)⟩)
      obtain ⟨row', hrow'⟩ := Option.isSome_iff_exists.mp (mem_outboxIds.mp hold)
      obtain rfl := Option.some.inj (hrow.symm.trans (hgrows.shared.outbox hrow'))
      exact mem_eventsSaved.mpr ⟨svc, oid, row, hrow', heq⟩
    · refine Finset.mem_union_right _ (Finset.mem_biUnion.mpr ⟨_, hnew, Option.mem_toFinset.mpr ?_⟩)
      exact Option.bind_eq_some_iff.mpr ⟨row, hrow, by rw [heq]; rfl⟩

theorem Checkout.Grows.left_card (hgrows : c.Grows c') {added : Finset (Service × Uuid)}
    (hsub : outboxIds c'.shared.db ⊆ outboxIds c.shared.db ∪ added) (hone : added.card ≤ 1) :
    c'.rowsLeft.card ≤ c.rowsLeft.card + 1 ∧ c'.eventsLeft.card ≤ c.eventsLeft.card + 1 := by
  obtain ⟨hrows, hevents⟩ := hgrows.left_subset hsub
  have hrowsCard := (Finset.card_le_card hrows).trans (Finset.card_union_le _ _)
  have heventsCard := (Finset.card_le_card hevents).trans (Finset.card_union_le _ _)
  have hbiUnion : (added.biUnion fun p => (relayedEvent c'.shared.db p).toFinset).card ≤
      added.card * 1 := by
    refine Finset.card_biUnion_le_card_mul _ _ _ fun p _ => ?_
    rw [Option.card_toFinset]
    cases relayedEvent c'.shared.db p
    · exact Nat.zero_le 1
    · exact le_refl 1
  omega

/-- Where no row was added. -/
theorem Checkout.Grows.left_same (hgrows : c.Grows c')
    (hsub : outboxIds c'.shared.db ⊆ outboxIds c.shared.db) :
    c'.rowsLeft ⊆ c.rowsLeft ∧ c'.eventsLeft ⊆ c.eventsLeft := by
  obtain ⟨hrows, hevents⟩ := hgrows.left_subset (hsub.trans (@Finset.subset_union_left _ _ _ ∅))
  rw [Finset.union_empty] at hrows
  rw [Finset.biUnion_empty, Finset.union_empty] at hevents
  exact ⟨hrows, hevents⟩

/-- What the services and the relay leave of the commands and the sagas. -/
theorem Checkout.Grows.left_other (hgrows : c.Grows c') (h : CheckoutReach c) (h' : CheckoutReach c')
    (hshared : c'.shared = c.run answer t) (hrequest : ¬ t.IsRequest) (hevent : ∀ r, t ≠ .event r) :
    c'.commandsLeft ⊆ c.commandsLeft ∧ c'.movesLeft = c.movesLeft := by
  have hprompt' := h'.sound.prompt
  rw [hshared] at hprompt'
  have hcommands : ∀ e, e ∈ commandsOf (c.run answer t) ↔ e ∈ commandsOf c.shared :=
    run_commandsOf h.sound.consistent h.sound.prompt hprompt' hrequest hevent
  constructor
  · rintro ⟨svc, e⟩ hmem
    obtain ⟨hpublished, hnot⟩ := mem_commandsLeft.mp hmem
    rw [hshared, hcommands] at hpublished
    exact mem_commandsLeft.mpr ⟨hpublished, fun hold => hnot (hgrows.commands hold)⟩
  · have hsame : SameSagas c.shared (c.run answer t) := run_sameSagas h.sound.consistent hevent
    unfold Checkout.movesLeft
    rw [hshared, ordersRequested_congr fun e _ => hcommands e]
    exact Finset.sum_congr rfl fun o _ => by rw [hsame.rows o]

end Grown

section Commands

variable {c : Checkout} {answer : ℕ → (a : Act) → Act.Reply a} {svc : Service}
  {r : Record CommandEnvelope}

/-- A command leads to one outbox row. -/
theorem work_lt_command (h : CheckoutReach c)
    (h' : CheckoutReach (c.handle answer (.command svc r)))
    (hout : c.Outstanding (.command svc r)) :
    (c.handle answer (.command svc r)).work < c.work := by
  have hgrows : c.Grows (c.handle answer (.command svc r)) := h.grows
  obtain ⟨hcommands, hmoves⟩ := hgrows.left_other h h' (Checkout.handle_shared _ _ _) id (by simp)
  have hlt : (c.handle answer (.command svc r)).commandsLeft.card < c.commandsLeft.card := by
    refine Finset.card_lt_card ⟨hcommands, fun hback => ?_⟩
    cases hout with
    | command hpublished hnot =>
      have hmem := hback (mem_commandsLeft.mpr ⟨h.sound.prompt.commands _ _ hpublished, hnot⟩)
      exact (mem_commandsLeft.mp hmem).2 List.mem_cons_self
  obtain ⟨added, hsub, -, hone⟩ := run_outboxIds answer (.command svc r) h.sound.consistent
  obtain ⟨hrows, hevents⟩ := hgrows.left_card hsub hone
  unfold Checkout.work
  rw [hmoves]
  omega

/-- A command that comes again leads to nothing. -/
theorem work_le_command (h : CheckoutReach c) (ht : c.Succeeds answer (.command svc r))
    (hout : ¬ c.Outstanding (.command svc r)) :
    (c.handle answer (.command svc r)).work ≤ c.work := by
  have hgrows : c.Grows (c.handle answer (.command svc r)) := h.grows
  have hpublished : Published c.shared r.topic (.command r.value) := ht.ready
  have hmem : (svc, r.value) ∈ c.commandsHandled := by
    by_contra hnot
    exact hout (.command hpublished hnot)
  have hsame : (c.run answer (.command svc r)).db = c.shared.db := by
    have hcode : (code (.command svc r)).After answer (.command svc r)
        (fun _ s' => s'.db = c.shared.db) c.shared := by
      refine Proc.after_bind _ _ ((Absorbed.again ((progressInv_of_reach h).commands _ _ hmem)
        h.sound.consistent (fun htype => ?_) ht.answers.refund).mono ?_)
      · -- no release is published
        have hcommanded := h.sound.inv.commands _ _ hpublished
        rw [htype] at hcommanded
        cases hcommanded
      · rintro res s' ⟨rfl, hdb⟩
        refine Proc.after_act ?_
        rw [ht.answers.commitOffsets]
        exact hdb
    exact hcode
  obtain ⟨hcommands, hmoves⟩ := hgrows.left_other h (h.step (.handled ht))
    (Checkout.handle_shared _ _ _) id (by simp)
  have hcommands := Finset.card_le_card hcommands
  obtain ⟨hrows, hevents⟩ := hgrows.left_same (by rw [Checkout.handle_shared, hsame])
  have hrows := Finset.card_le_card hrows
  have hevents := Finset.card_le_card hevents
  unfold Checkout.work
  rw [hmoves]
  omega

end Commands

section Relay

variable {c c' : Checkout} {answer : ℕ → (a : Act) → Act.Reply a} {svc : Service} {oid : Uuid}

/-- A relay leads to no other delivery but that of the event of its row. -/
theorem Checkout.Grows.left_relay (hgrows : c.Grows c') (h : CheckoutReach c) (h' : CheckoutReach c')
    (hshared : c'.shared = c.run answer (.relay svc oid)) :
    c'.rowsLeft ⊆ c.rowsLeft ∧ c'.eventsLeft ⊆ c.eventsLeft ∧
      c'.commandsLeft ⊆ c.commandsLeft ∧ c'.movesLeft = c.movesLeft := by
  obtain ⟨hrows, hevents⟩ := hgrows.left_same (by
    rw [hshared]
    exact run_outboxIds_of h.sound.consistent (by simp))
  exact ⟨hrows, hevents, hgrows.left_other h h' hshared id (by simp)⟩

theorem Checkout.Grows.work_le_relay (hgrows : c.Grows c') (h : CheckoutReach c)
    (h' : CheckoutReach c') (hshared : c'.shared = c.run answer (.relay svc oid)) :
    c'.work ≤ c.work := by
  obtain ⟨hrows, hevents, hcommands, hmoves⟩ := hgrows.left_relay h h' hshared
  have hrows := Finset.card_le_card hrows
  have hevents := Finset.card_le_card hevents
  have hcommands := Finset.card_le_card hcommands
  unfold Checkout.work
  omega

theorem work_lt_relay (h : CheckoutReach c) (h' : CheckoutReach (c.handle answer (.relay svc oid)))
    (hout : c.Outstanding (.relay svc oid)) :
    (c.handle answer (.relay svc oid)).work < c.work := by
  obtain ⟨hrows, hevents, hcommands, hmoves⟩ :=
    h.grows.left_relay h h' (Checkout.handle_shared c answer (.relay svc oid))
  have hlt : (c.handle answer (.relay svc oid)).rowsLeft.card < c.rowsLeft.card := by
    refine Finset.card_lt_card ⟨hrows, fun hback => ?_⟩
    cases hout with
    | relay hrow hnot =>
      have hmem := hback (mem_rowsLeft.mpr ⟨mem_outboxIds.mpr hrow, hnot⟩)
      exact (mem_rowsLeft.mp hmem).2 List.mem_cons_self
  have hevents := Finset.card_le_card hevents
  have hcommands := Finset.card_le_card hcommands
  unfold Checkout.work
  omega

end Relay

section Events

variable {c : Checkout} {answer : ℕ → (a : Act) → Act.Reply a} {r : Record EventEnvelope}

/-- An order with a saga was asked for. -/
theorem mem_ordersRequested_of_saga {o : Uuid} {row : SagaInstanceRow} (h : CheckoutReach c)
    (hrow : sagaRow c.shared o = some row) : o ∈ ordersRequested c.shared := by
  obtain ⟨customerId, items, ⟨-, e, hpublished, htype, hpayload⟩, -⟩ := h.sound.inv.sagas o row hrow
  refine mem_ordersRequested.mpr ⟨e, h.sound.prompt.commands _ _ hpublished, htype, ?_⟩
  rw [hpayload]

/-- An event leads to one command, and to none unless a saga is moved on. -/
theorem left_of_event (h : CheckoutReach c) (h' : CheckoutReach (c.handle answer (.event r)))
    (hanswers : Answers answer c.shared.db) :
    (c.handle answer (.event r)).movesLeft ≤ c.movesLeft ∧
      (c.handle answer (.event r)).commandsLeft ⊆ c.commandsLeft ∨
    (c.handle answer (.event r)).movesLeft < c.movesLeft ∧
      ∃ e, (c.handle answer (.event r)).commandsLeft ⊆ c.commandsLeft ∪
        services.toFinset.image fun svc => (svc, e) := by
  have hgrows : c.Grows (c.handle answer (.event r)) := h.grows
  have hrun : c.run answer (.event r) = handle c.shared (deliveryOf answer r) :=
    run_event hanswers r c.shared
  -- the commands left are those of before, and what was published
  have hcommands : ∀ {sent}, commandsOf (handle c.shared (deliveryOf answer r)) =
      commandsOf c.shared ++ sent → ∀ svc e, (svc, e) ∈ (c.handle answer (.event r)).commandsLeft →
        (svc, e) ∈ c.commandsLeft ∨ e ∈ sent := by
    intro sent hsent svc e hmem
    obtain ⟨hpublished, hnot⟩ := mem_commandsLeft.mp hmem
    rw [Checkout.handle_shared, hrun, hsent] at hpublished
    obtain hold | hnew := List.mem_append.mp hpublished
    · exact .inl (mem_commandsLeft.mpr ⟨hold, fun hmem => hnot (hgrows.commands hmem)⟩)
    · exact .inr hnew
  -- the orders are those of before
  have horders : ∀ {sent}, commandsOf (handle c.shared (deliveryOf answer r)) =
      commandsOf c.shared ++ sent → (∀ e ∈ sent, e.type ≠ .createOrder) →
      ordersRequested (handle c.shared (deliveryOf answer r)) = ordersRequested c.shared := by
    intro sent hsent hne
    refine ordersRequested_congr fun e htype => ?_
    rw [hsent, List.mem_append, or_iff_left fun hmem => hne e hmem htype]
  have hmovesLeft : (c.handle answer (.event r)).movesLeft =
      ∑ o ∈ ordersRequested (handle c.shared (deliveryOf answer r)),
        (3 - movesMade (sagaRow (handle c.shared (deliveryOf answer r)) o)) := by
    unfold Checkout.movesLeft
    rw [Checkout.handle_shared, hrun]
  obtain ⟨hsame, hrows⟩ | ⟨orderId, st, sent, hid, hsent, hothers, hreact⟩ :=
    handle_reaction (deliveryOf answer r) c.shared
  · have hnil : commandsOf (handle c.shared (deliveryOf answer r)) = commandsOf c.shared ++ [] := by
      rw [hsame, List.append_nil]
    refine .inl ⟨?_, fun ⟨svc, e⟩ hmem => (hcommands hnil svc e hmem).resolve_right (by simp)⟩
    rw [hmovesLeft, horders hnil (by simp)]
    exact le_of_eq (Finset.sum_congr rfl fun o _ => by rw [hrows o])
  · have hsagas := (progressInv_of_reach h).sagas
    have hmoves := hreact.moves (hsagas.index orderId)
    have hne : ∀ e ∈ sent, e.type ≠ .createOrder := by
      intro e he heq
      have htypes := (hreact.sent_cases hid he).2
      rw [heq] at htypes
      simp at htypes
    rw [hmovesLeft, horders hsent hne]
    have hle : ∀ o ∈ ordersRequested c.shared,
        3 - movesMade (sagaRow (handle c.shared (deliveryOf answer r)) o) ≤
          3 - movesMade (sagaRow c.shared o) := by
      intro o _
      by_cases ho : o = orderId
      · subst ho
        obtain ⟨-, hmoves⟩ | ⟨-, hmoves⟩ := hmoves <;> omega
      · rw [hothers o ho]
    obtain ⟨rfl, -⟩ | ⟨⟨e, rfl⟩, hlt⟩ := hmoves
    · exact .inl ⟨Finset.sum_le_sum hle,
        fun ⟨svc, e⟩ hmem => (hcommands hsent svc e hmem).resolve_right (by simp)⟩
    · refine .inr ⟨Finset.sum_lt_sum hle ⟨orderId, ?_, ?_⟩, e, ?_⟩
      · -- the row that was moved on is that of an order that was asked for
        cases hrow : sagaRow (handle c.shared (deliveryOf answer r)) orderId with
        | none =>
          rw [hrow] at hlt
          exact absurd hlt (Nat.not_lt_zero _)
        | some row =>
          rw [← horders hsent hne, ← hrun, ← Checkout.handle_shared]
          exact mem_ordersRequested_of_saga h' (by rw [Checkout.handle_shared, hrun, hrow])
      · have hindex := (progressInv_of_reach h').sagas.index orderId
        rw [Checkout.handle_shared, hrun] at hindex
        have hthree := movesMade_le hindex
        omega
      · rintro ⟨svc, e'⟩ hmem
        obtain hold | hnew := hcommands hsent svc e' hmem
        · exact Finset.mem_union_left _ hold
        · obtain rfl := List.mem_singleton.mp hnew
          exact Finset.mem_union_right _ (Finset.mem_image_of_mem _
            (List.mem_toFinset.mpr (mem_services svc)))

/-- What an event adds to the commands it takes from the moves. -/
theorem work_event (h : CheckoutReach c) (h' : CheckoutReach (c.handle answer (.event r)))
    (hanswers : Answers answer c.shared.db) : (c.handle answer (.event r)).work ≤ c.work ∧
      (c.Outstanding (.event r) → (c.handle answer (.event r)).work < c.work) := by
  have hgrows : c.Grows (c.handle answer (.event r)) := h.grows
  obtain ⟨hrows, hevents⟩ := hgrows.left_same (run_outboxIds_of h.sound.consistent (by simp))
  have hrows := Finset.card_le_card hrows
  have hlt : c.Outstanding (.event r) →
      (c.handle answer (.event r)).eventsLeft.card < c.eventsLeft.card := by
    intro hout
    refine Finset.card_lt_card ⟨hevents, fun hback => ?_⟩
    cases hout with
    | event hpublished hnot =>
      have hmem := hback (mem_eventsLeft.mpr ⟨h.relayedOnly _ _ hpublished, hnot⟩)
      exact (mem_eventsLeft.mp hmem).2 List.mem_cons_self
  have hevents := Finset.card_le_card hevents
  have hmoves : 9 * (c.handle answer (.event r)).movesLeft +
      3 * (c.handle answer (.event r)).commandsLeft.card ≤
        9 * c.movesLeft + 3 * c.commandsLeft.card := by
    obtain ⟨hmoves, hcommands⟩ | ⟨hmoves, e, hcommands⟩ := left_of_event h h' hanswers
    · have hcommands := Finset.card_le_card hcommands
      omega
    · have hcommands := (Finset.card_le_card hcommands).trans (Finset.card_union_le _ _)
      have himage : (services.toFinset.image fun svc => (svc, e)).card ≤ 3 := Finset.card_image_le
      omega
  unfold Checkout.work
  constructor
  · omega
  · intro hout
    have hlt := hlt hout
    omega

end Events

/-! ## Every sequence of deliveries -/

/-- Deliveries one after another, of which `n` were outstanding; what was
delivered may come again, and a row may be published and not marked. -/
inductive Delivers : ℕ → Checkout → Checkout → Prop
  | done {c : Checkout} : Delivers 0 c c
  | outstanding {c c' : Checkout} {answer : ℕ → (a : Act) → Act.Reply a} {t : Task} {n : ℕ} :
      c.Outstanding t → c.Succeeds answer t → Delivers n (c.handle answer t) c' →
      Delivers (n + 1) c c'
  | again {c c' : Checkout} {answer : ℕ → (a : Act) → Act.Reply a} {t : Task} {n : ℕ} :
      ¬ c.Outstanding t → ¬ t.IsRequest → c.Succeeds answer t → Delivers n (c.handle answer t) c' →
      Delivers n c c'
  | unmarked {c c' : Checkout} {answer : ℕ → (a : Act) → Act.Reply a} {svc : Service} {oid : Uuid}
      {n : ℕ} : c.Succeeds answer (.relay svc oid) →
      Delivers n { c with shared := c.run answer (.relay svc oid) } c' → Delivers n c c'

section Drains

variable {c c' : Checkout} {answer : ℕ → (a : Act) → Act.Reply a} {t : Task} {n : ℕ}

/-- **Less is left after each delivery.** -/
theorem work_lt (h : CheckoutReach c) (hout : c.Outstanding t) (ht : c.Succeeds answer t) :
    (c.handle answer t).work < c.work := by
  have h' : CheckoutReach (c.handle answer t) := h.step (.handled ht)
  cases t with
  | createOrder customerId items correlationId => cases hout
  | command svc r => exact work_lt_command h h' hout
  | event r => exact (work_event h h' ht.answers).2 hout
  | relay svc oid => exact work_lt_relay h h' hout

/-- Nothing more is left when something comes again. -/
theorem work_le (h : CheckoutReach c) (hout : ¬ c.Outstanding t) (hrequest : ¬ t.IsRequest)
    (ht : c.Succeeds answer t) : (c.handle answer t).work ≤ c.work := by
  have h' : CheckoutReach (c.handle answer t) := h.step (.handled ht)
  cases t with
  | createOrder customerId items correlationId => exact (hrequest trivial).elim
  | command svc r => exact work_le_command h ht hout
  | event r => exact (work_event h h' ht.answers).1
  | relay svc oid => exact h.grows.work_le_relay h h' (Checkout.handle_shared c answer _)

theorem work_le_unmarked {svc : Service} {oid : Uuid} (h : CheckoutReach c)
    (ht : c.Succeeds answer (.relay svc oid)) :
    ({ c with shared := c.run answer (.relay svc oid) } : Checkout).work ≤ c.work := by
  have hgrows : c.Grows { c with shared := c.run answer (.relay svc oid) } :=
    ⟨Checkout.grows_run h.sound.consistent, List.Subset.refl _, List.Subset.refl _,
      List.Subset.refl _⟩
  exact hgrows.work_le_relay h (h.step (.unmarked ht)) rfl

theorem Checkout.Outstanding.not_request (h : c.Outstanding t) : ¬ t.IsRequest := by
  cases h <;> exact id

theorem Delivers.reach (hdelivers : Delivers n c c') (h : CheckoutReach c) : CheckoutReach c' := by
  induction hdelivers with
  | done => exact h
  | outstanding _ ht _ ih => exact ih (h.step (.handled ht))
  | again _ _ ht _ ih => exact ih (h.step (.handled ht))
  | unmarked ht _ ih => exact ih (h.step (.unmarked ht))

theorem Delivers.roomy (hdelivers : Delivers n c c') (h : CheckoutReach c)
    (hroomy : Roomy c.shared) : Roomy c'.shared := by
  induction hdelivers with
  | done => exact hroomy
  | outstanding hout ht _ ih =>
    refine ih (h.step (.handled ht)) ?_
    rw [Checkout.handle_shared]
    exact hroomy.run h.sound.consistent hout.not_request
  | again _ hrequest ht _ ih =>
    refine ih (h.step (.handled ht)) ?_
    rw [Checkout.handle_shared]
    exact hroomy.run h.sound.consistent hrequest
  | unmarked ht _ ih =>
    exact ih (h.step (.unmarked ht)) (hroomy.run h.sound.consistent id)

theorem Delivers.le_work (hdelivers : Delivers n c c') (h : CheckoutReach c) :
    n + c'.work ≤ c.work := by
  induction hdelivers with
  | done => rw [Nat.zero_add]
  | outstanding hout ht _ ih =>
    have hrest := ih (h.step (.handled ht))
    have hlt := work_lt h hout ht
    omega
  | again hout hrequest ht _ ih =>
    exact (ih (h.step (.handled ht))).trans (work_le h hout hrequest ht)
  | unmarked ht _ ih => exact (ih (h.step (.unmarked ht))).trans (work_le_unmarked h ht)

end Drains

/-! ## One delivery after another -/

/-- The id after all there are. -/
def unusedId (db : Db) : Uuid := uuidOf ((db.map fun entry => uuidNumber entry.1.id).foldr max 0 + 1)

theorem newId_unusedId (db : Db) : NewId db (unusedId db) := by
  refine ⟨uuidOf_ne_empty _, fun hmem => ?_⟩
  obtain ⟨entry, hentry, heq⟩ := List.mem_map.mp hmem
  have hle : uuidNumber entry.1.id ≤ (db.map fun entry => uuidNumber entry.1.id).foldr max 0 :=
    List.le_max_of_le (List.mem_map.mpr ⟨entry, hentry, rfl⟩) le_rfl
  rw [heq, unusedId, uuidNumber_uuidOf] at hle
  omega

namespace Checkout

variable (c : Checkout)

/-- The deliveries of a message that are outstanding. -/
def deliveries (topic : Topic) : Message → List Task
  | .command e =>
    (services.filter fun svc => (svc, e) ∉ c.commandsHandled).map fun svc =>
      .command svc ⟨topic, 0, 0, e⟩
  | .event e => if e ∈ c.eventsHandled then [] else [.event ⟨topic, 0, 0, e⟩]

/-- What is outstanding: messages and then rows, the oldest first. -/
def outstanding : List Task :=
  (publications c.shared).reverse.flatMap (fun p => c.deliveries p.1 p.2) ++
    ((c.shared.db.reverse.filterMap fun entry => entry.1.outboxed).filter (· ∉ c.publishedAt)).map
      fun p => .relay p.1 p.2

/-- One delivery after another, `n` at most. -/
def drain (provider : AuthorizeParams → AuthorizeResult) : ℕ → Checkout → Checkout
  | 0, c => c
  | n + 1, c =>
    match c.outstanding with
    | [] => c
    | t :: _ => drain provider n (c.handle (supplying provider (unusedId c.shared.db)) t)

end Checkout

section Drain

variable {c : Checkout} {t : Task} {provider : AuthorizeParams → AuthorizeResult}

theorem mem_deliveries {topic : Topic} {message : Message} :
    t ∈ c.deliveries topic message ↔
      (∃ svc e, message = .command e ∧ (svc, e) ∉ c.commandsHandled ∧
        t = .command svc ⟨topic, 0, 0, e⟩) ∨
      ∃ e, message = .event e ∧ e ∉ c.eventsHandled ∧ t = .event ⟨topic, 0, 0, e⟩ := by
  cases message with
  | command e =>
    unfold Checkout.deliveries
    simp only [List.mem_map, List.mem_filter, decide_eq_true_eq]
    constructor
    · rintro ⟨svc, ⟨-, hnot⟩, rfl⟩
      exact .inl ⟨svc, e, rfl, hnot, rfl⟩
    · rintro (⟨svc, e', heq, hnot, rfl⟩ | ⟨e', heq, -⟩)
      · obtain rfl := Message.command.inj heq
        exact ⟨svc, ⟨mem_services svc, hnot⟩, rfl⟩
      · cases heq
  | event e =>
    unfold Checkout.deliveries
    by_cases he : e ∈ c.eventsHandled
    · simp [he]
    · simp [he]

theorem outstanding_of_mem (h : t ∈ c.outstanding) : c.Outstanding t := by
  obtain hmessage | hrow := List.mem_append.mp h
  · obtain ⟨⟨topic, message⟩, hmem, ht⟩ := List.mem_flatMap.mp hmessage
    have hpublished := published_iff.mpr (List.mem_reverse.mp hmem)
    obtain ⟨svc, e, rfl, hnot, rfl⟩ | ⟨e, rfl, hnot, rfl⟩ := mem_deliveries.mp ht
    · exact .command hpublished hnot
    · exact .event hpublished hnot
  · obtain ⟨⟨svc, oid⟩, hmem, rfl⟩ := List.mem_map.mp hrow
    obtain ⟨hmem, hnot⟩ := List.mem_filter.mp hmem
    rw [List.filterMap_reverse, List.mem_reverse] at hmem
    exact .relay (mem_outboxIds.mp (List.mem_toFinset.mpr hmem)) (of_decide_eq_true hnot)

/-- The list is empty only where nothing is outstanding. -/
theorem quiet_of_outstanding (h : c.outstanding = []) : Quiet c := by
  have hnone : ∀ t, t ∉ c.outstanding := fun t ht => by
    rw [h] at ht
    cases ht
  refine quiet_iff.mpr fun t ht => ?_
  cases ht with
  | @command svc r hpublished hnot =>
    refine hnone (.command svc ⟨r.topic, 0, 0, r.value⟩) (List.mem_append_left _ ?_)
    exact List.mem_flatMap.mpr ⟨_, List.mem_reverse.mpr (published_iff.mp hpublished),
      mem_deliveries.mpr (.inl ⟨svc, r.value, rfl, hnot, rfl⟩)⟩
  | @event r hpublished hnot =>
    refine hnone (.event ⟨r.topic, 0, 0, r.value⟩) (List.mem_append_left _ ?_)
    exact List.mem_flatMap.mpr ⟨_, List.mem_reverse.mpr (published_iff.mp hpublished),
      mem_deliveries.mpr (.inr ⟨r.value, rfl, hnot, rfl⟩)⟩
  | @relay svc oid hrow hnot =>
    refine hnone (.relay svc oid) (List.mem_append_right _ ?_)
    refine List.mem_map.mpr ⟨(svc, oid), List.mem_filter.mpr ⟨?_, decide_eq_true hnot⟩, rfl⟩
    rw [List.filterMap_reverse, List.mem_reverse]
    exact List.mem_toFinset.mp (mem_outboxIds.mpr hrow)

/-- What each delivery keeps. -/
theorem drain_keeps {I : Checkout → Prop}
    (hI : ∀ c t, CheckoutReach c → Roomy c.shared → I c → c.Outstanding t →
      c.Succeeds (supplying provider (unusedId c.shared.db)) t →
      I (c.handle (supplying provider (unusedId c.shared.db)) t))
    (n : ℕ) (h : CheckoutReach c) (hroomy : Roomy c.shared) (hc : I c) :
    I (c.drain provider n) := by
  induction n generalizing c with
  | zero => exact hc
  | succ n ih =>
    unfold Checkout.drain
    split
    · exact hc
    · rename_i t more heq
      have hout : c.Outstanding t := outstanding_of_mem (by rw [heq]; exact List.mem_cons_self)
      have ht := succeeds_of_ready provider h hroomy hout.ready (newId_unusedId _)
      refine ih (h.step (.handled ht)) ?_ (hI c t h hroomy hc hout ht)
      rw [Checkout.handle_shared]
      exact hroomy.run h.sound.consistent hout.not_request

theorem reach_drain (n : ℕ) (h : CheckoutReach c) (hroomy : Roomy c.shared) :
    CheckoutReach (c.drain provider n) :=
  drain_keeps (fun _ _ h _ _ _ ht => h.step (.handled ht)) n h hroomy h

theorem roomy_drain (n : ℕ) (h : CheckoutReach c) (hroomy : Roomy c.shared) :
    Roomy (c.drain provider n).shared :=
  drain_keeps (I := fun c => Roomy c.shared) (fun c t h _ hroomy hout _ => by
    rw [Checkout.handle_shared]
    exact hroomy.run h.sound.consistent hout.not_request) n h hroomy hroomy

theorem grows_drain (n : ℕ) (h : CheckoutReach c) (hroomy : Roomy c.shared) :
    Grows c.shared (c.drain provider n).shared :=
  drain_keeps (I := fun c' => Grows c.shared c'.shared) (fun c' t h _ hgrow _ _ => by
    rw [Checkout.handle_shared]
    exact hgrow.trans (Checkout.grows_run h.sound.consistent)) n h hroomy (Grows.refl _)

theorem draws_drain (n : ℕ) (h : CheckoutReach c) (hroomy : Roomy c.shared) {t : Task} {id : Uuid}
    (ht : t.IsRequest) (hmem : Event.acted t .randomUUID id ∈ (c.drain provider n).shared.trace) :
    Event.acted t .randomUUID id ∈ c.shared.trace := by
  refine drain_keeps (I := fun c' => Event.acted t .randomUUID id ∈ c'.shared.trace →
    Event.acted t .randomUUID id ∈ c.shared.trace) (fun c' t' h _ hold hout _ hmem => ?_)
    n h hroomy (fun h => h) hmem
  rw [Checkout.handle_shared] at hmem
  exact hold (run_draws h.sound.consistent hout.not_request ht hmem)

/-- It delivers `n` messages and rows that are outstanding, if there are. -/
theorem delivers_drain (provider : AuthorizeParams → AuthorizeResult) (n : ℕ)
    (h : CheckoutReach c) (hroomy : Roomy c.shared) :
    ∃ k, Delivers k c (c.drain provider n) ∧ (k = n ∨ Quiet (c.drain provider n)) := by
  induction n generalizing c with
  | zero => exact ⟨0, .done, .inl rfl⟩
  | succ n ih =>
    unfold Checkout.drain
    split
    · exact ⟨0, .done, .inr (quiet_of_outstanding ‹_›)⟩
    · rename_i t more heq
      have hout : c.Outstanding t := outstanding_of_mem (by rw [heq]; exact List.mem_cons_self)
      have ht := succeeds_of_ready provider h hroomy hout.ready (newId_unusedId _)
      obtain ⟨k, hdelivers, hend⟩ := ih (h.step (.handled ht)) (by
        rw [Checkout.handle_shared]
        exact hroomy.run h.sound.consistent hout.not_request)
      exact ⟨k + 1, .outstanding hout ht hdelivers, hend.imp (congrArg (· + 1)) id⟩

/-- It gets to the end. -/
theorem quiet_drain (provider : AuthorizeParams → AuthorizeResult) (h : CheckoutReach c)
    (hroomy : Roomy c.shared) : Quiet (c.drain provider c.work) := by
  obtain ⟨k, hdelivers, rfl | hquiet⟩ := delivers_drain provider c.work h hroomy
  · refine quiet_iff.mpr fun t hout => ?_
    have hbound := hdelivers.le_work h
    have hreach := hdelivers.reach h
    have hlt := work_lt hreach hout (succeeds_of_ready provider hreach (hdelivers.roomy h hroomy)
      hout.ready (newId_unusedId _))
    omega
  · exact hquiet

end Drain

section Requests

/-- The ids drawn, and by whom. -/
def drawn : Event Row Act.Reply Task → Option (Task × Uuid)
  | .acted t .randomUUID id => some (t, id)
  | _ => none

def draws (s : Shared) : List (Task × Uuid) := s.trace.filterMap drawn

theorem mem_draws {s : Shared} {t : Task} {id : Uuid} (h : Event.acted t .randomUUID id ∈ s.trace) :
    (t, id) ∈ draws s := List.mem_filterMap.mpr ⟨_, h, rfl⟩

/-- Orders for more than the five in stock. -/
def requests : List (Uuid × Task) :=
  [(rowId 0 0, .createOrder customer₁ [{ sku := "A", qty := 2, unitPriceCents := 500 }] "c"),
   (rowId 0 0, .createOrder customer₂ [{ sku := "A", qty := 1, unitPriceCents := 300 }] "d"),
   (rowId 0 0, .createOrder customer₃ [{ sku := "A", qty := 3, unitPriceCents := 100 }] "e")]

def afterRequests : Checkout := Checkout.handleAll ⟨⟨fiveInStock, []⟩, [], [], []⟩ requests

theorem reach_afterRequests : CheckoutReach afterRequests :=
  CheckoutReach.handleAll (.start onlyStocked_fiveInStock) requests (by decide +kernel)

theorem orderFits_fiveInStock {qty unitPriceCents : ℕ} (hqty : 0 < qty) (hle : qty ≤ 5)
    (hprice : unitPriceCents ≤ 500) :
    OrderFits fiveInStock [{ sku := "A", qty, unitPriceCents }] where
  total := by
    refine ⟨qty * unitPriceCents, ?_, ?_⟩
    · rw [totalCents_eq]
      simp
    · have hle : qty * unitPriceCents ≤ 5 * 500 := Nat.mul_le_mul hle hprice
      constructor <;> push_cast <;> omega
  lines line hline := by
    obtain rfl := List.mem_singleton.mp hline
    exact ⟨qty, hqty, rfl⟩
  room sku row hrow := by
    have hfive : (qty : ℚ) ≤ 5 := by exact_mod_cast hle
    rw [(level_fiveInStock hrow).1]
    simp only [reservationLines, List.map_cons, List.map_nil, qtyOf_cons, qtyOf_nil]
    split
    · push_cast
      linarith
    · norm_num

theorem requestFits_single {customerId : Uuid} {qty unitPriceCents : ℕ} {correlationId : String}
    (hcustomer : IsUuid customerId) (hcorrelation : TextFits correlationId) :
    RequestFits customerId [{ sku := "A", qty, unitPriceCents }] correlationId where
  customer := hcustomer
  skus item hitem := by
    obtain rfl := List.mem_singleton.mp hitem
    exact (by decide +kernel : TextFits "A")
  correlationId := hcorrelation

/-- Each id of an order was drawn for one of the three. -/
theorem request_of_drawn {customerId : Uuid} {items : List OrderLineItem} {correlationId : String}
    {o : Uuid} (h : Event.acted (.createOrder customerId items correlationId) .randomUUID o ∈
      afterRequests.shared.trace) :
    RequestFits customerId items correlationId ∧ OrderFits fiveInStock items := by
  have hdraws : ∀ p ∈ draws afterRequests.shared, p.1 ∈ requests.map Prod.snd := by decide +kernel
  have hrequest := hdraws _ (mem_draws h)
  simp only [requests, List.map_cons, List.map_nil, List.mem_cons, Task.createOrder.injEq,
    List.not_mem_nil, or_false] at hrequest
  obtain ⟨rfl, rfl, rfl⟩ | ⟨rfl, rfl, rfl⟩ | ⟨rfl, rfl, rfl⟩ := hrequest
  · exact ⟨requestFits_single (by decide +kernel) (by decide +kernel),
      orderFits_fiveInStock (by decide) (by decide) (by decide)⟩
  · exact ⟨requestFits_single (by decide +kernel) (by decide +kernel),
      orderFits_fiveInStock (by decide) (by decide) (by decide)⟩
  · exact ⟨requestFits_single (by decide +kernel) (by decide +kernel),
      orderFits_fiveInStock (by decide) (by decide) (by decide)⟩

theorem roomy_afterRequests : Roomy afterRequests.shared where
  requests _ _ _ _ hmem := (request_of_drawn hmem).1
  counters sku row hrow := by
    rw [(level_fiveInStock hrow).2]
    decide
  orders _ _ _ _ hmem := (request_of_drawn hmem).2

end Requests

end Saganova
