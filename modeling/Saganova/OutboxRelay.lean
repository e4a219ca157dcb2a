import Saganova.ServiceProtocol

/-!
# The outbox relay

`OutboxAbstractRepository.relay`, statement by statement, over one service's
outbox table: any number of relay transactions at once, each one tick of some
replica.  `SELECT ... FOR UPDATE SKIP LOCKED` sorts a snapshot of the
unpublished rows and then comes to them one at a time: it skips a row that
another transaction has locked, and looks at the `WHERE` clause again under the
lock.  The loop publishes inside the transaction; its updates are seen by
others after the commit, and an abort (a crash, or a failed statement, after
which the increment of the `catch` block fails as well) undoes them.

No row is lost and none is made up (`relayDelivers`).
-/

namespace Saganova

/-! ## The table -/

/-- A row of an outbox table.  `createdAt` is the start of the transaction that
inserted it; `sequence` is that of its event, which is not a column. -/
structure OutboxEntry extends OutboxRow where
  id : Uuid
  createdAt : ℕ
  sequence : ℕ

namespace OutboxEntry

/-- The same row, whatever a relay wrote to it. -/
structure Same (e e' : OutboxEntry) : Prop where
  id : e'.id = e.id
  aggregateId : e'.aggregateId = e.aggregateId
  topic : e'.topic = e.topic
  eventType : e'.eventType = e.eventType
  payload : e'.payload = e.payload
  correlationId : e'.correlationId = e.correlationId
  createdAt : e'.createdAt = e.createdAt
  sequence : e'.sequence = e.sequence

theorem Same.refl (e : OutboxEntry) : Same e e := ⟨rfl, rfl, rfl, rfl, rfl, rfl, rfl, rfl⟩

theorem Same.trans {e₁ e₂ e₃ : OutboxEntry} (h : Same e₁ e₂) (h' : Same e₂ e₃) : Same e₁ e₃ :=
  ⟨h'.id.trans h.id, h'.aggregateId.trans h.aggregateId, h'.topic.trans h.topic,
    h'.eventType.trans h.eventType, h'.payload.trans h.payload,
    h'.correlationId.trans h.correlationId, h'.createdAt.trans h.createdAt,
    h'.sequence.trans h.sequence⟩

/-- Another row, and of an earlier event if of the same aggregate. -/
structure Before (e e' : OutboxEntry) : Prop where
  id_ne : e.id ≠ e'.id
  sequence_lt : e.aggregateId = e'.aggregateId → e.sequence < e'.sequence

theorem Before.same {e₁ e₂ e₁' e₂' : OutboxEntry} (h : Before e₁ e₂) (h₁ : Same e₁ e₁')
    (h₂ : Same e₂ e₂') : Before e₁' e₂' where
  id_ne := by
    rw [h₁.id, h₂.id]
    exact h.id_ne
  sequence_lt := by
    rw [h₁.aggregateId, h₂.aggregateId, h₁.sequence, h₂.sequence]
    exact h.sequence_lt

/-- The envelope that a row is published as. -/
def envelope (e : OutboxEntry) : Message := relayedMessage e.id e.toOutboxRow

theorem Same.envelope {e e' : OutboxEntry} (h : Same e e') : e'.envelope = e.envelope := by
  unfold OutboxEntry.envelope relayedMessage
  rw [h.id, h.eventType, h.correlationId, h.aggregateId, h.payload]

end OutboxEntry

/-- A statement of the loop on its current row. -/
inductive OutboxUpdate where
  /-- `update(row.id, { publishedAt: new Date() })` -/
  | publishedAt (time : Time)
  /-- `increment({ id: row.id }, 'publishAttempts', 1)` -/
  | publishAttempts

def OutboxUpdate.apply : OutboxUpdate → OutboxEntry → OutboxEntry
  | .publishedAt time, e => { e with publishedAt := some time }
  | .publishAttempts, e => { e with publishAttempts := e.publishAttempts + 1 }

/-- The row after the updates that a transaction made, newest first, by row. -/
def OutboxEntry.after (e : OutboxEntry) (writes : List (Uuid × OutboxUpdate)) : OutboxEntry :=
  writes.foldr (fun w e => if w.1 = e.id then w.2.apply e else e) e

namespace OutboxEntry

variable {e : OutboxEntry} {writes : List (Uuid × OutboxUpdate)}

theorem after_cons (e : OutboxEntry) (w : Uuid × OutboxUpdate) (writes : List (Uuid × OutboxUpdate)) :
    e.after (w :: writes) =
      if w.1 = (e.after writes).id then w.2.apply (e.after writes) else e.after writes := rfl

theorem same_apply (u : OutboxUpdate) (e : OutboxEntry) : e.Same (u.apply e) := by
  cases u <;> exact ⟨rfl, rfl, rfl, rfl, rfl, rfl, rfl, rfl⟩

theorem same_after (e : OutboxEntry) (writes : List (Uuid × OutboxUpdate)) :
    e.Same (e.after writes) := by
  induction writes with
  | nil => exact .refl e
  | cons w writes ih =>
    rw [after_cons]
    split
    · exact ih.trans (same_apply w.2 _)
    · exact ih

/-- A row that no update names stays as it is. -/
theorem after_of_forall_ne (h : ∀ w ∈ writes, w.1 ≠ e.id) : e.after writes = e := by
  induction writes with
  | nil => rfl
  | cons w writes ih =>
    obtain ⟨hw, hwrites⟩ := List.forall_mem_cons.mp h
    rw [after_cons, ih hwrites, if_neg hw]

/-- A row is published afterwards exactly if it was, or was stamped. -/
theorem publishedAt_after : (e.after writes).publishedAt ≠ none ↔
    e.publishedAt ≠ none ∨ ∃ time, (e.id, .publishedAt time) ∈ writes := by
  induction writes with
  | nil => simp [after]
  | cons w writes ih =>
    obtain ⟨id, u⟩ := w
    have hid : (e.after writes).id = e.id := (same_after e writes).id
    rw [after_cons]
    by_cases h : id = e.id
    · rw [if_pos (h.trans hid.symm)]
      cases u with
      | publishedAt time => simp [OutboxUpdate.apply, h]
      | publishAttempts => simpa [OutboxUpdate.apply, h] using ih
    · rw [if_neg fun h' => h (h'.trans hid)]
      simpa [Ne.symm h] using ih

end OutboxEntry

/-! ## Relays -/

/-- Where a relay is. -/
inductive RelayPhase where
  /-- in the SELECT: the rows of its snapshot that it has not come to -/
  | selecting (candidates : List OutboxEntry)
  /-- at the head of the loop -/
  | sending
  /-- the current row was published and is to be stamped -/
  | stamping
  /-- publishing the current row failed, which is to be counted -/
  | counting

/-- A relay transaction under way.  `passed` are the rows that it left
unpublished behind it: locked by another, or failed. -/
structure Relay where
  phase : RelayPhase
  /-- the rows of the batch that the loop has not done with, the current one first -/
  rows : List OutboxEntry
  locks : List Uuid
  writes : List (Uuid × OutboxUpdate)
  passed : List OutboxEntry

def Relay.candidates (r : Relay) : List OutboxEntry :=
  match r.phase with
  | .selecting candidates => candidates
  | _ => []

/-- A call of `KafkaProducerService.publish` for a row. -/
structure Publication where
  row : Uuid
  topic : Topic
  message : Message
  key : String
  result : Except Err Unit

/-- `producer.publish(row.topic, { id: row.id, ... }, { key: row.aggregateId })` -/
def OutboxEntry.publish (e : OutboxEntry) (result : Except Err Unit) : Publication where
  row := e.id
  topic := e.topic
  message := e.envelope
  key := e.aggregateId
  result := result

/-- The row was published successfully. -/
def Relayed (publications : List Publication) (id : Uuid) : Prop :=
  ∃ p ∈ publications, p.row = id ∧ p.result = .ok ()

/-- How often the row was published successfully. -/
def relayedCount (publications : List Publication) (id : Uuid) : ℕ :=
  publications.countP fun p => p.row = id && p.result.toBool

structure RelayState where
  table : List OutboxEntry
  relays : ℕ → Option Relay
  /-- newest first -/
  publications : List Publication

namespace RelayState

def setRelay (s : RelayState) (i : ℕ) (r : Option Relay) : RelayState :=
  { s with relays := Function.update s.relays i r }

section SetRelay

variable (s : RelayState) (i : ℕ) (r : Option Relay)

@[simp] theorem setRelay_table : (s.setRelay i r).table = s.table := rfl

@[simp] theorem setRelay_publications : (s.setRelay i r).publications = s.publications := rfl

@[simp] theorem setRelay_self : (s.setRelay i r).relays i = r := Function.update_self ..

theorem setRelay_of_ne {j : ℕ} (h : j ≠ i) : (s.setRelay i r).relays j = s.relays j :=
  Function.update_of_ne h ..

end SetRelay

/-- Another relay holds the lock of the row. -/
def LockedByOther (s : RelayState) (i : ℕ) (id : Uuid) : Prop :=
  ∃ j r, j ≠ i ∧ s.relays j = some r ∧ id ∈ r.locks

/-- With no other relay under way no lock is another's. -/
theorem setRelay_alone {s : RelayState} {i : ℕ} {r : Option Relay} {id : Uuid}
    (h : ∀ j ≠ i, s.relays j = none) : ¬ (s.setRelay i r).LockedByOther i id := by
  rintro ⟨j, r', hj, hr', _⟩
  rw [setRelay_of_ne _ _ _ hj, h j hj] at hr'
  nomatch hr'

end RelayState

inductive RelayChoice where
  | insert (rows : List OutboxEntry)
  | tick (candidates : List OutboxEntry)
  | lock
  | skipLocked
  | skipPublished
  | fetched
  | publish (result : Except Err Unit)
  | stamp (time : Time)
  | count
  | commit
  | abort

/-- One step of relay `i`, or of a service that inserts rows. -/
inductive RelayStep (batchSize : ℕ) : RelayState → ℕ → RelayChoice → RelayState → Prop
  /-- the `writeWithinTransaction` calls of one transaction: its aggregates' next events -/
  | insert {s : RelayState} {i : ℕ} {es : List OutboxEntry} :
      (∀ e ∈ s.table, ∀ e' ∈ es, e.Before e') → es.Pairwise OutboxEntry.Before →
      (∀ e ∈ es, e.publishedAt = none ∧ e.publishAttempts = 0) →
      RelayStep batchSize s i (.insert es) { s with table := s.table ++ es }
  /-- the snapshot of the SELECT, sorted; rows of one instant in any order -/
  | tick {s : RelayState} {i : ℕ} {candidates : List OutboxEntry} : s.relays i = none →
      candidates.Perm (s.table.filter (·.publishedAt.isNone)) →
      candidates.Pairwise (·.createdAt ≤ ·.createdAt) →
      RelayStep batchSize s i (.tick candidates)
        (s.setRelay i (some ⟨.selecting candidates, [], [], [], []⟩))
  | lock {s : RelayState} {i : ℕ} {c e : OutboxEntry} {candidates rows passed : List OutboxEntry}
      {locks : List Uuid} : s.relays i = some ⟨.selecting (c :: candidates), rows, locks, [], passed⟩ →
      rows.length < batchSize → ¬ s.LockedByOther i c.id →
      e ∈ s.table → e.id = c.id → e.publishedAt = none →
      RelayStep batchSize s i .lock
        (s.setRelay i (some ⟨.selecting candidates, rows ++ [e], c.id :: locks, [], passed⟩))
  | skipLocked {s : RelayState} {i : ℕ} {c : OutboxEntry} {candidates rows passed : List OutboxEntry}
      {locks : List Uuid} : s.relays i = some ⟨.selecting (c :: candidates), rows, locks, [], passed⟩ →
      rows.length < batchSize → s.LockedByOther i c.id →
      RelayStep batchSize s i .skipLocked
        (s.setRelay i (some ⟨.selecting candidates, rows, locks, [], c :: passed⟩))
  /-- published since the snapshot was taken: no longer asked for, but locked now -/
  | skipPublished {s : RelayState} {i : ℕ} {c e : OutboxEntry}
      {candidates rows passed : List OutboxEntry} {locks : List Uuid} :
      s.relays i = some ⟨.selecting (c :: candidates), rows, locks, [], passed⟩ →
      rows.length < batchSize → ¬ s.LockedByOther i c.id →
      e ∈ s.table → e.id = c.id → e.publishedAt ≠ none →
      RelayStep batchSize s i .skipPublished
        (s.setRelay i (some ⟨.selecting candidates, rows, c.id :: locks, [], passed⟩))
  | fetched {s : RelayState} {i : ℕ} {candidates rows passed : List OutboxEntry}
      {locks : List Uuid} : s.relays i = some ⟨.selecting candidates, rows, locks, [], passed⟩ →
      candidates = [] ∨ rows.length = batchSize →
      RelayStep batchSize s i .fetched (s.setRelay i (some ⟨.sending, rows, locks, [], passed⟩))
  | publish {s : RelayState} {i : ℕ} {e : OutboxEntry} {rows passed : List OutboxEntry}
      {locks : List Uuid} {writes : List (Uuid × OutboxUpdate)} {result : Except Err Unit} :
      s.relays i = some ⟨.sending, e :: rows, locks, writes, passed⟩ →
      RelayStep batchSize s i (.publish result)
        { s.setRelay i (some ⟨if result.toBool then .stamping else .counting, e :: rows, locks,
            writes, passed⟩) with
          publications := e.publish result :: s.publications }
  | stamp {s : RelayState} {i : ℕ} {e : OutboxEntry} {rows passed : List OutboxEntry}
      {locks : List Uuid} {writes : List (Uuid × OutboxUpdate)} {time : Time} :
      s.relays i = some ⟨.stamping, e :: rows, locks, writes, passed⟩ →
      RelayStep batchSize s i (.stamp time)
        (s.setRelay i (some ⟨.sending, rows, locks, (e.id, .publishedAt time) :: writes, passed⟩))
  /-- `catch`: the row stays unpublished, and the loop goes on -/
  | count {s : RelayState} {i : ℕ} {e : OutboxEntry} {rows passed : List OutboxEntry}
      {locks : List Uuid} {writes : List (Uuid × OutboxUpdate)} :
      s.relays i = some ⟨.counting, e :: rows, locks, writes, passed⟩ →
      RelayStep batchSize s i .count
        (s.setRelay i (some ⟨.sending, rows, locks, (e.id, .publishAttempts) :: writes, e :: passed⟩))
  | commit {s : RelayState} {i : ℕ} {passed : List OutboxEntry} {locks : List Uuid}
      {writes : List (Uuid × OutboxUpdate)} :
      s.relays i = some ⟨.sending, [], locks, writes, passed⟩ →
      RelayStep batchSize s i .commit
        { s.setRelay i none with table := s.table.map (·.after writes) }
  | abort {s : RelayState} {i : ℕ} {r : Relay} : s.relays i = some r →
      RelayStep batchSize s i .abort (s.setRelay i none)

/-- From one state to a later one, over steps that meet `G`. -/
inductive RelayRun (batchSize : ℕ) (G : RelayState → ℕ → RelayChoice → Prop) (s : RelayState) :
    RelayState → Prop
  | refl : RelayRun batchSize G s s
  | step {s₁ s₂ : RelayState} {i : ℕ} {c : RelayChoice} : RelayRun batchSize G s s₁ →
      RelayStep batchSize s₁ i c s₂ → G s₁ i c → RelayRun batchSize G s s₂

/-- No row, and no relay under way. -/
def emptyOutbox : RelayState := ⟨[], fun _ => none, []⟩

def anyRelayStep : RelayState → ℕ → RelayChoice → Prop := fun _ _ _ => True

/-- No relay transaction aborts. -/
def NoAbort : RelayState → ℕ → RelayChoice → Prop
  | _, _, .abort => False
  | _, _, _ => True

/-! ## What holds of a relay under way -/

theorem OutboxEntry.Same.publish {e e' : OutboxEntry} (h : e.Same e') (result : Except Err Unit) :
    e'.publish result = e.publish result := by
  unfold OutboxEntry.publish
  rw [h.id, h.topic, h.envelope, h.aggregateId]

theorem Relayed.cons {publications : List Publication} {id : Uuid} (h : Relayed publications id)
    (p : Publication) : Relayed (p :: publications) id :=
  let ⟨p', hp', hrow⟩ := h
  ⟨p', .tail _ hp', hrow⟩

/-- A relay has locked what it is to publish, and stamps what it has published. -/
structure Relay.Ok (table : List OutboxEntry) (publications : List Publication) (r : Relay) :
    Prop where
  rows : ∀ e ∈ r.rows, e ∈ table ∧ e.publishedAt = none ∧ e.id ∈ r.locks
  candidates : ∀ c ∈ r.candidates, ∃ e ∈ table, c.Same e
  passed : ∀ c ∈ r.passed, ∃ e ∈ table, c.Same e
  nodup : ((r.rows ++ r.candidates).map (·.id)).Nodup
  locks : ∀ id ∈ r.locks, ∃ e ∈ table, e.id = id
  writes : ∀ w ∈ r.writes, w.1 ∈ r.locks ∧ ∀ e ∈ r.rows, e.id ≠ w.1
  stamped : ∀ id time, (id, .publishedAt time) ∈ r.writes → Relayed publications id
  stamping : r.phase = .stamping → ∀ e ∈ r.rows.head?, Relayed publications e.id

section Frame

variable {table : List OutboxEntry} {publications : List Publication} {r : Relay}

theorem Relay.Ok.insert (h : r.Ok table publications) (es : List OutboxEntry) :
    r.Ok (table ++ es) publications where
  rows e he := by
    obtain ⟨hmem, hrest⟩ := h.rows e he
    exact ⟨List.mem_append_left _ hmem, hrest⟩
  candidates c hc := by
    obtain ⟨e, he, hsame⟩ := h.candidates c hc
    exact ⟨e, List.mem_append_left _ he, hsame⟩
  passed c hc := by
    obtain ⟨e, he, hsame⟩ := h.passed c hc
    exact ⟨e, List.mem_append_left _ he, hsame⟩
  nodup := h.nodup
  locks id hid := by
    obtain ⟨e, he, heid⟩ := h.locks id hid
    exact ⟨e, List.mem_append_left _ he, heid⟩
  writes := h.writes
  stamped := h.stamped
  stamping := h.stamping

theorem Relay.Ok.published (h : r.Ok table publications) (p : Publication) :
    r.Ok table (p :: publications) :=
  { h with
    stamped := fun id time hmem => (h.stamped id time hmem).cons p
    stamping := fun hphase e he => (h.stamping hphase e he).cons p }

/-- A commit that wrote to none of the relay's locked rows. -/
theorem Relay.Ok.committed {writes : List (Uuid × OutboxUpdate)} (h : r.Ok table publications)
    (hfree : ∀ w ∈ writes, w.1 ∉ r.locks) : r.Ok (table.map (·.after writes)) publications where
  rows e he := by
    obtain ⟨hmem, hpublished, hlock⟩ := h.rows e he
    refine ⟨List.mem_map.mpr ⟨e, hmem, ?_⟩, hpublished, hlock⟩
    apply OutboxEntry.after_of_forall_ne
    intro w hw heq
    exact hfree w hw (heq ▸ hlock)
  candidates c hc := by
    obtain ⟨e, he, hsame⟩ := h.candidates c hc
    exact ⟨_, List.mem_map_of_mem he, hsame.trans (e.same_after writes)⟩
  passed c hc := by
    obtain ⟨e, he, hsame⟩ := h.passed c hc
    exact ⟨_, List.mem_map_of_mem he, hsame.trans (e.same_after writes)⟩
  nodup := h.nodup
  locks id hid := by
    obtain ⟨e, he, heid⟩ := h.locks id hid
    exact ⟨_, List.mem_map_of_mem he, (e.same_after writes).id.trans heid⟩
  writes := h.writes
  stamped := h.stamped
  stamping := h.stamping

end Frame

/-! ## One step of the relay itself -/

section Own

variable {table : List OutboxEntry} {publications : List Publication}
  {candidates rows passed : List OutboxEntry} {locks : List Uuid}
  {writes : List (Uuid × OutboxUpdate)} {c e : OutboxEntry}

theorem Relay.Ok.lock
    (h : Relay.Ok table publications ⟨.selecting (c :: candidates), rows, locks, [], passed⟩)
    (he : e ∈ table) (hid : e.id = c.id) (hpublished : e.publishedAt = none) :
    Relay.Ok table publications
      ⟨.selecting candidates, rows ++ [e], c.id :: locks, [], passed⟩ where
  rows e' he' := by
    obtain he' | he' := List.mem_append.mp he'
    · obtain ⟨hmem, hnone, hlock⟩ := h.rows e' he'
      exact ⟨hmem, hnone, .tail _ hlock⟩
    · obtain rfl := List.mem_singleton.mp he'
      exact ⟨he, hpublished, hid ▸ .head _⟩
  candidates c' hc' := h.candidates c' (.tail _ hc')
  passed := h.passed
  nodup := by
    have hnodup := h.nodup
    simpa [Relay.candidates, hid] using hnodup
  locks id hmem := by
    obtain rfl | hmem := List.mem_cons.mp hmem
    · exact ⟨e, he, hid⟩
    · exact h.locks id hmem
  writes w hw := absurd hw List.not_mem_nil
  stamped id time hmem := absurd hmem List.not_mem_nil
  stamping hphase := RelayPhase.noConfusion hphase

/-- The candidate is left where it is, its row locked by another or published. -/
theorem Relay.Ok.skip {passed' : List OutboxEntry} {locks' : List Uuid}
    (h : Relay.Ok table publications ⟨.selecting (c :: candidates), rows, locks, [], passed⟩)
    (hpassed : ∀ c' ∈ passed', c' = c ∨ c' ∈ passed) (hlocks : ∀ id ∈ locks', id = c.id ∨ id ∈ locks)
    (hsub : ∀ id ∈ locks, id ∈ locks') :
    Relay.Ok table publications ⟨.selecting candidates, rows, locks', [], passed'⟩ where
  rows e he := by
    obtain ⟨hmem, hnone, hlock⟩ := h.rows e he
    exact ⟨hmem, hnone, hsub _ hlock⟩
  candidates c' hc' := h.candidates c' (.tail _ hc')
  passed c' hc' := by
    obtain rfl | hc' := hpassed c' hc'
    · exact h.candidates c' (.head _)
    · exact h.passed c' hc'
  nodup := by
    refine h.nodup.sublist (List.Sublist.map _ ?_)
    exact (List.sublist_cons_self c candidates).append_left rows
  locks id hid := by
    obtain rfl | hid := hlocks id hid
    · obtain ⟨e, he, hsame⟩ := h.candidates c (.head _)
      exact ⟨e, he, hsame.id⟩
    · exact h.locks id hid
  writes w hw := absurd hw List.not_mem_nil
  stamped id time hmem := absurd hmem List.not_mem_nil
  stamping hphase := RelayPhase.noConfusion hphase

theorem Relay.Ok.fetched
    (h : Relay.Ok table publications ⟨.selecting candidates, rows, locks, [], passed⟩) :
    Relay.Ok table publications ⟨.sending, rows, locks, [], passed⟩ where
  rows := h.rows
  candidates c hc := absurd hc List.not_mem_nil
  passed := h.passed
  nodup := by
    refine h.nodup.sublist (List.Sublist.map _ ?_)
    exact (List.nil_sublist candidates).append_left rows
  locks := h.locks
  writes := h.writes
  stamped := h.stamped
  stamping hphase := RelayPhase.noConfusion hphase

theorem Relay.Ok.publish (h : Relay.Ok table publications ⟨.sending, e :: rows, locks, writes, passed⟩)
    (result : Except Err Unit) :
    Relay.Ok table (e.publish result :: publications)
      ⟨if result.toBool then .stamping else .counting, e :: rows, locks, writes, passed⟩ where
  rows := h.rows
  candidates c hc := by
    cases result <;> exact absurd hc List.not_mem_nil
  passed := h.passed
  nodup := by
    cases result <;> exact h.nodup
  locks := h.locks
  writes := h.writes
  stamped id time hmem := (h.stamped id time hmem).cons _
  stamping hphase e' he' := by
    obtain rfl := Option.some.inj he'
    cases result with
    | error err => exact RelayPhase.noConfusion hphase
    | ok u => exact ⟨_, .head _, rfl, rfl⟩

/-- The loop is done with its current row. -/
theorem Relay.Ok.next {phase : RelayPhase} {passed' : List OutboxEntry} {u : OutboxUpdate}
    (h : Relay.Ok table publications ⟨phase, e :: rows, locks, writes, passed⟩)
    (hphase : phase = .stamping ∨ u = .publishAttempts)
    (hpassed : ∀ c ∈ passed', c = e ∨ c ∈ passed) :
    Relay.Ok table publications ⟨.sending, rows, locks, (e.id, u) :: writes, passed'⟩ where
  rows e' he' := h.rows e' (.tail _ he')
  candidates c hc := absurd hc List.not_mem_nil
  passed c hc := by
    obtain rfl | hc := hpassed c hc
    · exact ⟨c, (h.rows c (.head _)).1, .refl c⟩
    · exact h.passed c hc
  nodup := by
    refine h.nodup.sublist (List.Sublist.map _ ?_)
    exact (List.sublist_cons_self e rows).append (List.nil_sublist _)
  locks := h.locks
  writes w hw := by
    obtain rfl | hw := List.mem_cons.mp hw
    · refine ⟨(h.rows e (.head _)).2.2, fun e' he' heq => ?_⟩
      have hnotin := (List.nodup_cons.mp h.nodup).1
      exact hnotin (List.mem_map.mpr ⟨e', List.mem_append_left _ he', heq⟩)
    · obtain ⟨hlock, hne⟩ := h.writes w hw
      exact ⟨hlock, fun e' he' => hne e' (.tail _ he')⟩
  stamped id time hmem := by
    obtain heq | hmem := List.mem_cons.mp hmem
    · obtain ⟨rfl, rfl⟩ := Prod.mk.inj heq
      obtain hphase | hu := hphase
      · exact h.stamping hphase e rfl
      · exact OutboxUpdate.noConfusion hu
    · exact h.stamped id time hmem
  stamping hphase := RelayPhase.noConfusion hphase

end Own

/-- What holds in every state of every run. -/
structure RelayInv (s : RelayState) : Prop where
  table : s.table.Pairwise OutboxEntry.Before
  published : ∀ e ∈ s.table, e.publishedAt ≠ none → Relayed s.publications e.id
  publications : ∀ p ∈ s.publications, ∃ e ∈ s.table, p = e.publish p.result
  relays : ∀ i r, s.relays i = some r → r.Ok s.table s.publications
  locks : ∀ i r, s.relays i = some r → ∀ id ∈ r.locks, ¬ s.LockedByOther i id

namespace RelayInv

variable {s s' : RelayState} {i : ℕ} {batchSize : ℕ} {c : RelayChoice}

/-- The rows of the table have different ids. -/
theorem eq_of_id_eq (hs : RelayInv s) {e e' : OutboxEntry} (he : e ∈ s.table) (he' : e' ∈ s.table)
    (hid : e.id = e'.id) : e = e' := by
  have hids : (s.table.map (·.id)).Nodup := List.pairwise_map.mpr (hs.table.imp fun h => h.id_ne)
  exact List.inj_on_of_nodup_map hids he he' hid

/-- Relay `i` goes on as `r`, with locks that are not another's. -/
theorem setRelay {r : Relay} (hs : RelayInv s) (hr : r.Ok s.table s.publications)
    (hlocks : ∀ id ∈ r.locks, ¬ s.LockedByOther i id) : RelayInv (s.setRelay i (some r)) where
  table := hs.table
  published := hs.published
  publications := hs.publications
  relays j r' hj := by
    by_cases hij : j = i
    · subst hij
      rw [RelayState.setRelay_self] at hj
      obtain rfl := Option.some.inj hj
      exact hr
    · rw [RelayState.setRelay_of_ne _ _ _ hij] at hj
      exact hs.relays j r' hj
  locks j r' hj id hid hother := by
    obtain ⟨k, r'', hkj, hk, hid'⟩ := hother
    by_cases hij : j = i
    · subst hij
      rw [RelayState.setRelay_self] at hj
      rw [RelayState.setRelay_of_ne _ _ _ hkj] at hk
      obtain rfl := Option.some.inj hj
      exact hlocks id hid ⟨k, r'', hkj, hk, hid'⟩
    · rw [RelayState.setRelay_of_ne _ _ _ hij] at hj
      by_cases hik : k = i
      · subst hik
        rw [RelayState.setRelay_self] at hk
        obtain rfl := Option.some.inj hk
        exact hlocks id hid' ⟨j, r', hij, hj, hid⟩
      · rw [RelayState.setRelay_of_ne _ _ _ hik] at hk
        exact hs.locks j r' hj id hid ⟨k, r'', hkj, hk, hid'⟩

/-- Relay `i` has ended. -/
theorem endRelay (hs : RelayInv s) (i : ℕ) : RelayInv (s.setRelay i none) where
  table := hs.table
  published := hs.published
  publications := hs.publications
  relays j r hj := by
    by_cases hij : j = i
    · subst hij
      simp at hj
    · rw [RelayState.setRelay_of_ne _ _ _ hij] at hj
      exact hs.relays j r hj
  locks j r hj id hid hother := by
    obtain ⟨k, r', hkj, hk, hid'⟩ := hother
    by_cases hij : j = i
    · subst hij
      simp at hj
    by_cases hik : k = i
    · subst hik
      simp at hk
    rw [RelayState.setRelay_of_ne _ _ _ hij] at hj
    rw [RelayState.setRelay_of_ne _ _ _ hik] at hk
    exact hs.locks j r hj id hid ⟨k, r', hkj, hk, hid'⟩

theorem insert {es : List OutboxEntry} (hs : RelayInv s)
    (hbefore : ∀ e ∈ s.table, ∀ e' ∈ es, e.Before e') (hes : es.Pairwise OutboxEntry.Before)
    (hnew : ∀ e ∈ es, e.publishedAt = none) : RelayInv { s with table := s.table ++ es } where
  table := List.pairwise_append.mpr ⟨hs.table, hes, hbefore⟩
  published e he hpublished := by
    obtain he | he := List.mem_append.mp he
    · exact hs.published e he hpublished
    · exact absurd (hnew e he) hpublished
  publications p hp := by
    obtain ⟨e, he, heq⟩ := hs.publications p hp
    exact ⟨e, List.mem_append_left _ he, heq⟩
  relays j r hj := (hs.relays j r hj).insert es
  locks := hs.locks

theorem publish {e : OutboxEntry} (hs : RelayInv s) (he : e ∈ s.table) (result : Except Err Unit) :
    RelayInv { s with publications := e.publish result :: s.publications } where
  table := hs.table
  published e' he' hpublished := (hs.published e' he' hpublished).cons _
  publications p hp := by
    obtain rfl | hp := List.mem_cons.mp hp
    · exact ⟨e, he, rfl⟩
    · exact hs.publications p hp
  relays j r hj := (hs.relays j r hj).published _
  locks := hs.locks

/-- The updates of relay `i` become visible to all. -/
theorem commit {r : Relay} (hs : RelayInv s) (hi : s.relays i = some r) :
    RelayInv { s.setRelay i none with table := s.table.map (·.after r.writes) } where
  table := by
    refine List.pairwise_map.mpr (hs.table.imp fun h => ?_)
    exact h.same (OutboxEntry.same_after _ _) (OutboxEntry.same_after _ _)
  published e he hpublished := by
    obtain ⟨e₀, he₀, rfl⟩ := List.mem_map.mp he
    rw [(e₀.same_after r.writes).id]
    obtain hbefore | ⟨time, hmem⟩ := OutboxEntry.publishedAt_after.mp hpublished
    · exact hs.published e₀ he₀ hbefore
    · exact (hs.relays i r hi).stamped _ time hmem
  publications p hp := by
    obtain ⟨e, he, heq⟩ := hs.publications p hp
    refine ⟨_, List.mem_map_of_mem he, ?_⟩
    rwa [(e.same_after r.writes).publish]
  relays j r' hj := by
    have hj : (s.setRelay i none).relays j = some r' := hj
    refine ((hs.endRelay i).relays j r' hj).committed fun w hw hlock => ?_
    by_cases hij : j = i
    · subst hij
      simp at hj
    · rw [RelayState.setRelay_of_ne _ _ _ hij] at hj
      exact hs.locks j r' hj w.1 hlock ⟨i, r, Ne.symm hij, hi, ((hs.relays i r hi).writes w hw).1⟩
  locks := (hs.endRelay i).locks

/-- The snapshot of a SELECT. -/
theorem tick {candidates : List OutboxEntry} (hs : RelayInv s)
    (hperm : candidates.Perm (s.table.filter (·.publishedAt.isNone))) :
    Relay.Ok s.table s.publications ⟨.selecting candidates, [], [], [], []⟩ where
  rows e he := absurd he List.not_mem_nil
  candidates c hc := ⟨c, (List.mem_filter.mp (hperm.mem_iff.mp hc)).1, .refl c⟩
  passed c hc := absurd hc List.not_mem_nil
  nodup := by
    have hids : (s.table.map (·.id)).Nodup :=
      List.pairwise_map.mpr (hs.table.imp fun h => h.id_ne)
    refine (hperm.map (·.id)).nodup_iff.mpr (hids.sublist ?_)
    exact List.Sublist.map _ List.filter_sublist
  locks id hid := absurd hid List.not_mem_nil
  writes w hw := absurd hw List.not_mem_nil
  stamped id time hmem := absurd hmem List.not_mem_nil
  stamping hphase := RelayPhase.noConfusion hphase

theorem step (hs : RelayInv s) (h : RelayStep batchSize s i c s') : RelayInv s' := by
  cases h with
  | insert hbefore hes hnew => exact hs.insert hbefore hes fun e he => (hnew e he).1
  | tick hi hperm hsorted =>
    exact hs.setRelay (hs.tick hperm) fun id hid => absurd hid List.not_mem_nil
  | lock hi hlen hfree he hid hpublished =>
    refine hs.setRelay ((hs.relays i _ hi).lock he hid hpublished) fun id hmem => ?_
    obtain rfl | hmem := List.mem_cons.mp hmem
    · exact hfree
    · exact hs.locks i _ hi id hmem
  | skipLocked hi hlen hlocked =>
    have hlocks := hs.locks i _ hi
    refine hs.setRelay ((hs.relays i _ hi).skip ?_ ?_ ?_) hlocks
    · exact fun c' => List.mem_cons.mp
    · exact fun id => .inr
    · exact fun id hid => hid
  | skipPublished hi hlen hfree he hid hpublished =>
    refine hs.setRelay ((hs.relays i _ hi).skip ?_ ?_ ?_) fun id hmem => ?_
    · exact fun c' => .inr
    · exact fun id => List.mem_cons.mp
    · exact fun id => .tail _
    · obtain rfl | hmem := List.mem_cons.mp hmem
      · exact hfree
      · exact hs.locks i _ hi id hmem
  | fetched hi hdone =>
    have hlocks := hs.locks i _ hi
    exact hs.setRelay (hs.relays i _ hi).fetched hlocks
  | publish hi =>
    have he := ((hs.relays i _ hi).rows _ (.head _)).1
    have hlocks := hs.locks i _ hi
    exact (hs.publish he _).setRelay ((hs.relays i _ hi).publish _) hlocks
  | stamp hi =>
    have hlocks := hs.locks i _ hi
    exact hs.setRelay ((hs.relays i _ hi).next (.inl rfl) fun c => .inr) hlocks
  | count hi =>
    have hlocks := hs.locks i _ hi
    exact hs.setRelay ((hs.relays i _ hi).next (.inr rfl) fun c => List.mem_cons.mp) hlocks
  | commit hi => exact hs.commit hi
  | abort hi => exact hs.endRelay i

end RelayInv

/-! ## Runs -/

section Runs

variable {batchSize i : ℕ} {G : RelayState → ℕ → RelayChoice → Prop} {s s' : RelayState}
  {c : RelayChoice}

theorem relayInv_emptyOutbox : RelayInv emptyOutbox where
  table := .nil
  published _ he := absurd he List.not_mem_nil
  publications _ hp := absurd hp List.not_mem_nil
  relays _ _ hj := nomatch hj
  locks _ _ hj := nomatch hj

theorem RelayRun.mono {G' : RelayState → ℕ → RelayChoice → Prop} (h : RelayRun batchSize G s s')
    (hG : ∀ s i c, G s i c → G' s i c) : RelayRun batchSize G' s s' := by
  induction h with
  | refl => exact .refl
  | step _ hstep hc ih => exact ih.step hstep (hG _ _ _ hc)

theorem RelayRun.inv (h : RelayRun batchSize G emptyOutbox s) : RelayInv s := by
  induction h with
  | refl => exact relayInv_emptyOutbox
  | step _ hstep _ ih => exact ih.step hstep

/-- No step takes a row away. -/
theorem RelayStep.rows_kept (h : RelayStep batchSize s i c s') :
    ∀ e ∈ s.table, ∃ e' ∈ s'.table, e.Same e' := by
  intro e he
  cases h
  case insert => exact ⟨e, List.mem_append_left _ he, .refl e⟩
  case commit => exact ⟨_, List.mem_map_of_mem he, e.same_after _⟩
  all_goals exact ⟨e, he, .refl e⟩

theorem RelayRun.rows_kept (h : RelayRun batchSize G s s') :
    ∀ e ∈ s.table, ∃ e' ∈ s'.table, e.Same e' := by
  induction h with
  | refl => exact fun e he => ⟨e, he, .refl e⟩
  | step _ hstep _ ih =>
    intro e he
    obtain ⟨e₁, he₁, hsame₁⟩ := ih e he
    obtain ⟨e₂, he₂, hsame₂⟩ := hstep.rows_kept e₁ he₁
    exact ⟨e₂, he₂, hsame₁.trans hsame₂⟩

end Runs

/-! ## Without aborts -/

/-- The relay has stamped the row, or is about to. -/
def Relay.Stamps (r : Relay) (id : Uuid) : Prop :=
  (∃ time, (id, .publishedAt time) ∈ r.writes) ∨
    r.phase = .stamping ∧ ∃ e ∈ r.rows.head?, e.id = id

/-- The row is published in the table, or will be when its relay commits. -/
def RelayState.Settled (s : RelayState) (id : Uuid) : Prop :=
  (∃ e ∈ s.table, e.id = id ∧ e.publishedAt ≠ none) ∨ ∃ i r, s.relays i = some r ∧ r.Stamps id

/-- A row is sent at most once, and is settled from then on. -/
def RelayedOnce (s : RelayState) : Prop :=
  ∀ id, relayedCount s.publications id = 0 ∨ relayedCount s.publications id = 1 ∧ s.Settled id

section NoAbort

variable {batchSize i : ℕ} {s s' : RelayState} {c : RelayChoice} {id : Uuid}

theorem Relay.Ok.locked_of_stamps {table : List OutboxEntry} {publications : List Publication}
    {r : Relay} (h : r.Ok table publications) (hstamps : r.Stamps id) : id ∈ r.locks := by
  obtain ⟨time, hmem⟩ | ⟨_, e, he, rfl⟩ := hstamps
  · exact (h.writes _ hmem).1
  · exact (h.rows e (List.mem_of_mem_head? he)).2.2

theorem RelayState.Settled.setRelay {r : Relay} (h : s.Settled id)
    (hr : ∀ r₀, s.relays i = some r₀ → r₀.Stamps id → r.Stamps id) :
    (s.setRelay i (some r)).Settled id := by
  obtain htable | ⟨j, r₀, hj, hstamps⟩ := h
  · exact .inl htable
  · refine .inr ⟨j, ?_⟩
    by_cases hij : j = i
    · subst hij
      exact ⟨r, setRelay_self .., hr r₀ hj hstamps⟩
    · exact ⟨r₀, (setRelay_of_ne _ _ _ hij).trans hj, hstamps⟩

/-- The current row of a relay that is about to publish it is not settled. -/
theorem RelayInv.not_settled {e : OutboxEntry} {rows passed : List OutboxEntry} {locks : List Uuid}
    {writes : List (Uuid × OutboxUpdate)} (hs : RelayInv s)
    (hi : s.relays i = some ⟨.sending, e :: rows, locks, writes, passed⟩) : ¬ s.Settled e.id := by
  have hok := hs.relays i _ hi
  obtain ⟨he, hnone, hlock⟩ := hok.rows e (.head _)
  rintro (⟨e', he', hid, hpublished⟩ | ⟨j, r, hj, hstamps⟩)
  · obtain rfl := hs.eq_of_id_eq he' he hid
    exact hpublished hnone
  · by_cases hij : j = i
    · subst hij
      obtain rfl := Option.some.inj (hj.symm.trans hi)
      obtain ⟨time, hmem⟩ | ⟨hphase, _⟩ := hstamps
      · exact (hok.writes _ hmem).2 e (.head _) rfl
      · exact RelayPhase.noConfusion hphase
    · exact hs.locks i _ hi e.id hlock ⟨j, r, hij, hj, (hs.relays j r hj).locked_of_stamps hstamps⟩

theorem RelayState.Settled.step (h : s.Settled id) (hs : RelayInv s)
    (hstep : RelayStep batchSize s i c s') (hc : NoAbort s i c) : s'.Settled id := by
  cases hstep with
  | insert _ _ _ =>
    refine h.imp_left fun ⟨e, he, hrest⟩ => ?_
    exact ⟨e, List.mem_append_left _ he, hrest⟩
  | tick hi _ _ => exact h.setRelay fun r₀ hr₀ => by rw [hi] at hr₀; nomatch hr₀
  | lock hi _ _ _ _ _ | skipLocked hi _ _ | skipPublished hi _ _ _ _ _ | fetched hi _ =>
    -- nothing is stamped before the loop
    refine h.setRelay fun r₀ hr₀ hstamps => ?_
    obtain rfl := Option.some.inj (hr₀.symm.trans hi)
    obtain ⟨_, hmem⟩ | ⟨hphase, _⟩ := hstamps
    · exact absurd hmem List.not_mem_nil
    · exact RelayPhase.noConfusion hphase
  | publish hi =>
    refine h.setRelay fun r₀ hr₀ hstamps => ?_
    obtain rfl := Option.some.inj (hr₀.symm.trans hi)
    exact .inl (hstamps.resolve_right fun ⟨hphase, _⟩ => RelayPhase.noConfusion hphase)
  | stamp hi =>
    refine h.setRelay fun r₀ hr₀ hstamps => ?_
    obtain rfl := Option.some.inj (hr₀.symm.trans hi)
    obtain ⟨time, hmem⟩ | ⟨_, e, he, rfl⟩ := hstamps
    · exact .inl ⟨time, .tail _ hmem⟩
    · obtain rfl := Option.some.inj he
      exact .inl ⟨_, .head _⟩
  | count hi =>
    refine h.setRelay fun r₀ hr₀ hstamps => ?_
    obtain rfl := Option.some.inj (hr₀.symm.trans hi)
    obtain ⟨time, hmem⟩ | ⟨hphase, _⟩ := hstamps
    · exact .inl ⟨time, .tail _ hmem⟩
    · exact RelayPhase.noConfusion hphase
  | @commit passed locks writes hi =>
    obtain ⟨e, he, rfl, hpublished⟩ | ⟨j, r, hj, hstamps⟩ := h
    · refine .inl ⟨e.after writes, List.mem_map_of_mem he, (e.same_after writes).id, ?_⟩
      exact OutboxEntry.publishedAt_after.mpr (.inl hpublished)
    · by_cases hij : j = i
      · subst hij
        obtain rfl := Option.some.inj (hj.symm.trans hi)
        have hok := hs.relays j _ hj
        obtain ⟨e, he, rfl⟩ := hok.locks id (hok.locked_of_stamps hstamps)
        have hmem := hstamps.resolve_right fun ⟨hphase, _⟩ => RelayPhase.noConfusion hphase
        refine .inl ⟨e.after writes, List.mem_map_of_mem he, (e.same_after writes).id, ?_⟩
        exact OutboxEntry.publishedAt_after.mpr (.inr hmem)
      · exact .inr ⟨j, r, (setRelay_of_ne _ _ _ hij).trans hj, hstamps⟩
  | abort _ => exact hc.elim

theorem relayedCount_publish (e : OutboxEntry) (result : Except Err Unit)
    (publications : List Publication) (id : Uuid) :
    relayedCount (e.publish result :: publications) id =
      relayedCount publications id + if e.id = id && result.toBool then 1 else 0 := by
  simp only [relayedCount, List.countP_cons]
  rfl

theorem RelayedOnce.step (h : RelayedOnce s) (hs : RelayInv s) (hstep : RelayStep batchSize s i c s')
    (hc : NoAbort s i c) : RelayedOnce s' := by
  intro id
  have hsettles (hsettled : s.Settled id) : s'.Settled id := hsettled.step hs hstep hc
  have hkeep : s'.publications = s.publications →
      relayedCount s'.publications id = 0 ∨ relayedCount s'.publications id = 1 ∧ s'.Settled id := by
    intro heq
    rw [heq]
    exact (h id).imp_right fun ⟨hone, hsettled⟩ => ⟨hone, hsettles hsettled⟩
  cases hstep with
  | @publish e rows passed locks writes result hi =>
    show relayedCount (e.publish result :: s.publications) id = 0 ∨
      relayedCount (e.publish result :: s.publications) id = 1 ∧ _
    rw [relayedCount_publish]
    by_cases hid : e.id = id ∧ result.toBool
    · obtain ⟨rfl, hok⟩ := hid
      have hzero : relayedCount s.publications e.id = 0 := (h e.id).resolve_right fun hone =>
        hs.not_settled hi hone.2
      refine .inr ⟨by simp [hzero, hok], .inr ⟨i, _, RelayState.setRelay_self .., .inr ?_⟩⟩
      exact ⟨if_pos hok, e, rfl, rfl⟩
    · have hadd : (if e.id = id && result.toBool then 1 else 0) = 0 := if_neg (by simpa using hid)
      rw [hadd]
      exact (h id).imp_right fun ⟨hone, hsettled⟩ => ⟨hone, hsettles hsettled⟩
  | _ => exact hkeep rfl

theorem RelayRun.relayedOnce (h : RelayRun batchSize NoAbort emptyOutbox s) : RelayedOnce s := by
  induction h with
  | refl => exact fun id => .inl rfl
  | step hrun hstep hc ih => exact ih.step hrun.inv hstep hc

end NoAbort

/-- No row is ever deleted; one is stamped only if it was sent; whatever is
published is a row of the table, on its topic, under its own id and keyed by its
aggregate; and without aborts no row is sent twice. -/
theorem relayDelivers (batchSize : ℕ) (s : RelayState)
    (h : RelayRun batchSize anyRelayStep emptyOutbox s) :
    (∀ s', RelayRun batchSize anyRelayStep s s' → ∀ e ∈ s.table, ∃ e' ∈ s'.table, e.Same e') ∧
    (∀ e ∈ s.table, e.publishedAt ≠ none → Relayed s.publications e.id) ∧
    (∀ p ∈ s.publications, ∃ e ∈ s.table, p.row = e.id ∧ p.topic = e.topic ∧
      p.message = relayedMessage e.id e.toOutboxRow ∧ p.key = e.aggregateId) ∧
    (∀ p ∈ s.publications, ∀ p' ∈ s.publications, p.row = p'.row →
      p.topic = p'.topic ∧ p.message = p'.message ∧ p.key = p'.key) ∧
    (RelayRun batchSize NoAbort emptyOutbox s → ∀ id, relayedCount s.publications id ≤ 1) := by
  have hs := h.inv
  refine ⟨fun s' h' => h'.rows_kept, hs.published, fun p hp => ?_, fun p hp p' hp' hrow => ?_,
    fun hno id => ?_⟩
  · obtain ⟨e, he, hpe⟩ := hs.publications p hp
    rw [hpe]
    exact ⟨e, he, rfl, rfl, rfl, rfl⟩
  · obtain ⟨e, he, hpe⟩ := hs.publications p hp
    obtain ⟨e', he', hpe'⟩ := hs.publications p' hp'
    rw [hpe, hpe'] at hrow ⊢
    obtain rfl := hs.eq_of_id_eq he he' hrow
    exact ⟨rfl, rfl, rfl⟩
  · obtain hzero | ⟨hone, _⟩ := hno.relayedOnce id
    · omega
    · omega

/-- The row of an ORDER_CREATED event. -/
def createdEntry : OutboxEntry where
  id := "m1"
  aggregateId := "o1"
  topic := .orderEvents
  eventType := .orderCreated
  payload := { orderId := some "o1", customerId := some "c1" }
  correlationId := "o1"
  publishedAt := none
  publishAttempts := 0
  createdAt := 1
  sequence := 1

theorem relayDelivers_created : ∃ s, RelayRun 100 NoAbort emptyOutbox s ∧
    s.publications = [createdEntry.publish (.ok ())] ∧ ∀ id, relayedCount s.publications id ≤ 1 := by
  have hinsert : RelayRun 100 NoAbort emptyOutbox ⟨[createdEntry], fun _ => none, []⟩ :=
    RelayRun.refl.step (i := 0) (.insert (by simp [emptyOutbox]) (List.pairwise_singleton ..)
      (by simp [createdEntry])) trivial
  have htick := hinsert.step (i := 0)
    (.tick rfl (.refl [createdEntry]) (List.pairwise_singleton ..)) trivial
  have hlock := htick.step (.lock (RelayState.setRelay_self ..) (by decide)
    (RelayState.setRelay_alone fun _ _ => rfl) (.head _) rfl rfl) trivial
  have hfetched := hlock.step (.fetched (RelayState.setRelay_self ..) (.inl rfl)) trivial
  have hpublish := hfetched.step (c := .publish (.ok ())) (.publish (RelayState.setRelay_self ..)) trivial
  refine ⟨_, hpublish, rfl, fun id => ?_⟩
  exact (relayDelivers 100 _ (hpublish.mono fun _ _ _ _ => trivial)).2.2.2.2 hpublish id

end Saganova
