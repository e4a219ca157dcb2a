import Saganova.Concurrency.Sequential
import Saganova.Services

/-!
# Races of the shared event store

`libs/database/src/event-store/postgres-event-store.service.ts`: `append`
compares the stream's last sequence with the expected version in one statement,
and inserts each event in a statement of its own, with no transaction around
them.  Any number of calls run at once, any insert may fail, and the table
keeps `(aggregateId, sequence)` unique and nothing else.

A call whose first insert fails has stored nothing.  One that fails later
leaves part of its events behind, and one that finds its sequence taken throws
the database's error and no `ConcurrencyError`.  Where neither happens every
call stores all its events or none (`appendAtomic`).
-/

namespace Saganova

open Concurrency

namespace PostgresEventStore

variable {π : Type}

/-! ## The table and the calls -/

/-- The unique index. -/
structure StreamKey where
  aggregateId : String
  sequence : ℕ
  deriving DecidableEq

structure StreamRow (π : Type) where
  aggregateType : String
  type : String
  payload : π
  correlationId : String
  occurredAt : Time

/-- `Omit<StoredEvent, 'aggregateId' | 'aggregateType' | 'sequence'>` -/
structure NewEvent (π : Type) where
  type : String
  payload : π
  occurredAt : Time
  correlationId : String

/-- The arguments of a call; `call` tells it from others with the same ones. -/
structure Append (π : Type) where
  call : ℕ
  aggregateId : String
  aggregateType : String
  events : List (NewEvent π)
  expectedVersion : ℕ

/-- It does nothing outside the database. -/
abbrev NoReply : Empty → Type := fun _ => Unit

abbrev TableRow (π : Type) : StreamKey → Type := fun _ => StreamRow π
abbrev Table (π : Type) := Store (TableRow π)
abbrev TableTx (π : Type) := Tx (TableRow π) Err
abbrev TableProc (π : Type) := Proc (TableRow π) Err NoReply
abbrev TableShared (π : Type) := Concurrency.Shared (TableRow π) NoReply (Append π)
abbrev TableState (π : Type) := Concurrency.State (TableRow π) Err NoReply (Append π)
abbrev TableLocks (π : Type) := Concurrency.LockState (TableRow π) Err NoReply (Append π)
abbrev TableGuard (π : Type) := Concurrency.Guard (TableRow π) Err NoReply (Append π)

/-- `MAX(e.sequence)` of the aggregate, and 0 where it has no events. -/
def currentVersion (db : Table π) (aggregateId : String) : ℕ :=
  db.foldr (fun entry max => if entry.1.aggregateId = aggregateId then
    Nat.max entry.1.sequence max else max) 0

/-- One `INSERT`, which the unique index may refuse. -/
def insertRow (key : StreamKey) (row : StreamRow π) : TableTx π Unit :=
  if Int4 key.sequence then
    .lock key fun
      | some _ => throw .uniqueViolation
      | none => .put key row (pure ())
  else throw (.queryFailed "integer out of range")

/-- The key of the event at an index. -/
def Append.key (t : Append π) (k : ℕ) : StreamKey := ⟨t.aggregateId, t.expectedVersion + k + 1⟩

def Append.row (t : Append π) (event : NewEvent π) : StreamRow π where
  aggregateType := t.aggregateType
  type := event.type
  payload := event.payload
  correlationId := event.correlationId
  occurredAt := event.occurredAt

/-- The loop: each insert is a statement, and a transaction, of its own. -/
def insertEvents (t : Append π) : ℕ → List (NewEvent π) → TableProc π Unit
  | _, [] => pure ()
  | sequence, event :: events => do
    Proc.transaction (insertRow ⟨t.aggregateId, sequence + 1⟩ (t.row event))
    insertEvents t (sequence + 1) events

def append (t : Append π) : TableProc π Unit := do
  let currentVersion ← Proc.select fun db => currentVersion db t.aggregateId
  if currentVersion ≠ t.expectedVersion then
    throw (.concurrencyError t.aggregateId t.expectedVersion)
  insertEvents t t.expectedVersion t.events

theorem append_eq (t : Append π) : append t = .read fun db =>
    if currentVersion db t.aggregateId = t.expectedVersion then
      insertEvents t t.expectedVersion t.events
    else throw (.concurrencyError t.aggregateId t.expectedVersion) := by
  unfold append
  rw [Proc.select_bind]
  congr 1
  funext db
  by_cases h : currentVersion db t.aggregateId = t.expectedVersion <;> simp [h]

theorem insertEvents_cons (t : Append π) (sequence : ℕ) (event : NewEvent π)
    (events : List (NewEvent π)) : insertEvents t sequence (event :: events) =
      .tx (insertRow ⟨t.aggregateId, sequence + 1⟩ (t.row event)) fun r =>
        Proc.ofExcept r >>= fun _ => insertEvents t (sequence + 1) events := rfl

theorem insertEvents_ne_throw (t : Append π) (sequence : ℕ) (events : List (NewEvent π))
    (err : Err) : insertEvents t sequence events ≠ throw err := by
  cases events <;> nofun

theorem insertEvents_ne_read (t : Append π) (sequence : ℕ) (events : List (NewEvent π))
    (next : Table π → TableProc π Unit) : insertEvents t sequence events ≠ .read next := by
  cases events <;> nofun

/-- The loop is over once no event is left. -/
theorem insertEvents_eq_pure {t : Append π} {sequence : ℕ} {events : List (NewEvent π)}
    (h : insertEvents t sequence events = pure ()) : events = [] := by
  cases events with
  | nil => rfl
  | cons event events => nomatch h

/-- Any calls on any table; no two of them are the same call. -/
def appendSystem (π : Type) :
    Concurrency.System (TableRow π) Err NoReply (Append π) where
  code := append
  start := fun s => s.trace = []
  spawn := fun s t => (∀ i job, s.jobs i = some job → job.task.call ≠ t.call) ∧
    ∀ t' writes, Event.committed t' writes ∈ s.shared.trace → t'.call ≠ t.call
  reply := fun _ _ _ _ => True
  fault := databaseFault

/-! ## What `append` promises -/

/-- The call stored all its events, at the sequences from the expected version on. -/
def AllStored (s : TableShared π) (t : Append π) : Prop :=
  ∀ k event, t.events[k]? = some event →
    Event.committed t [⟨t.key k, t.row event⟩] ∈ s.trace ∧
      Store.row s.db (t.key k) = some (t.row event)

def NothingStored (s : TableShared π) (t : Append π) : Prop :=
  ∀ writes, Event.committed t writes ∉ s.trace

/-- Every call that has returned stored all its events; every call that threw
stored none of them, and it threw a `ConcurrencyError` unless the database
failed. -/
structure AppendsAtomically (s : TableState π) : Prop where
  returned : ∀ i job, s.jobs i = some job → job.code = pure () → AllStored s.shared job.task
  threw : ∀ i job err, s.jobs i = some job → job.code = throw err →
    NothingStored s.shared job.task ∧
      (err = .concurrencyError job.task.aggregateId job.task.expectedVersion ∨ databaseFault err)

/-- No insert finds its sequence taken, and none fails after the call's first. -/
def FailsFirst : TableGuard π := fun s i c =>
  ∀ err job, c = .abort err → s.jobs i = some job →
    err ≠ .uniqueViolation ∧ NothingStored s.shared job.task

/-! ## What a call has done -/

section Progress

variable {s s' : TableShared π} {t : Append π} {k : ℕ}

/-- The first `k` events of the call are stored. -/
structure Progress (s : TableShared π) (t : Append π) (k : ℕ) : Prop where
  le : k ≤ t.events.length
  stored : ∀ j event, j < k → t.events[j]? = some event →
    Event.committed t [⟨t.key j, t.row event⟩] ∈ s.trace ∧
      Store.row s.db (t.key j) = some (t.row event)
  nothing : k = 0 → NothingStored s t

/-- A call that has not ended has stored a part of its events and goes on with
the rest. -/
def Running (s : TableShared π) (t : Append π) (code : TableProc π Unit) : Prop :=
  code = append t ∧ NothingStored s t ∨
    ∃ k, Progress s t k ∧
      code = insertEvents t (t.expectedVersion + k) (t.events.drop k)

/-- What any step of a call leaves as it was: rows, and other calls' part of the trace. -/
structure Others (t : Append π) (s s' : TableShared π) : Prop where
  trace : ∀ event, event ∈ s.trace → event ∈ s'.trace
  rows : ∀ key row, Store.row s.db key = some row → Store.row s'.db key = some row
  nothing : NothingStored s t → NothingStored s' t

theorem Progress.others (h : Progress s t k) (hothers : Others t s s') : Progress s' t k where
  le := h.le
  stored := fun j event hj hevent => ⟨hothers.trace _ (h.stored j event hj hevent).1,
    hothers.rows _ _ (h.stored j event hj hevent).2⟩
  nothing := fun hk => hothers.nothing (h.nothing hk)

/-- An insert that succeeds writes its row, and its sequence was free. -/
theorem insertRow_ok {key : StreamKey} {row : StreamRow π} {db w : Table π} {u : Unit}
    (h : (insertRow key row).exec db [] = .ok (u, w)) :
    Store.row db key = none ∧ w = [⟨key, row⟩] := by
  unfold insertRow at h
  split at h
  · exact Tx.exec_insert_ok (fun _ => rfl) rfl h
  · nomatch h

theorem insertRow_exec {key : StreamKey} {row : StreamRow π} {db : Table π}
    (hint : Int4 key.sequence) (hfree : Store.row db key = none) :
    (insertRow key row).exec db [] = .ok ((), [⟨key, row⟩]) := by
  unfold insertRow
  rw [if_pos hint, Tx.exec_lock, List.nil_append, hfree]
  rfl

/-- A statement that fails by itself finds its sequence taken, or no integer. -/
theorem insertRow_error {key : StreamKey} {row : StreamRow π} {db : Table π} {err : Err}
    (h : (insertRow key row).exec db [] = .error err) :
    err = .uniqueViolation ∨ databaseFault err := by
  unfold insertRow at h
  split at h
  · exact .inl (Tx.exec_insert_error (fun _ => rfl) rfl h).1
  · cases h
    exact .inr ⟨_, rfl⟩

theorem Progress.insert {event : NewEvent π} {writes : Table π} {u : Unit} (h : Progress s t k)
    (hevent : t.events[k]? = some event)
    (hexec : (insertRow (t.key k) (t.row event)).exec s.db [] = .ok (u, writes)) :
    Progress (s.commit t writes) t (k + 1) := by
  obtain ⟨hfree, rfl⟩ := insertRow_ok hexec
  refine ⟨?_, fun j event' hj hevent' => ?_, nofun⟩
  · exact (List.getElem?_eq_some_iff.mp hevent).1
  · rcases Nat.lt_succ_iff_lt_or_eq.mp hj with hlt | rfl
    · obtain ⟨hmem, hrow⟩ := h.stored j event' hlt hevent'
      refine ⟨List.mem_cons_of_mem _ hmem, ?_⟩
      have hne : t.key j ≠ t.key k := by
        intro heq
        have hsequence := congrArg StreamKey.sequence heq
        change t.expectedVersion + j + 1 = t.expectedVersion + k + 1 at hsequence
        omega
      exact (Store.row_cons_ne _ _ hne).trans hrow
    · obtain rfl := Option.some.inj (hevent.symm.trans hevent')
      exact ⟨List.mem_cons_self, Store.row_cons_self _ _ _⟩

/-- A commit of another call. -/
theorem Others.commit {t' : Append π} {key : StreamKey} {row : StreamRow π} {u : Unit}
    {writes : Table π} (hne : t'.call ≠ t.call)
    (hexec : (insertRow key row).exec s.db [] = .ok (u, writes)) :
    Others t s (s.commit t' writes) := by
  obtain ⟨hfree, rfl⟩ := insertRow_ok hexec
  refine ⟨fun event hmem => List.mem_cons_of_mem _ hmem,
    fun key' row' hrow => Store.row_cons_of_free hfree hrow, fun hnothing writes' hmem => ?_⟩
  rcases List.mem_cons.mp hmem with heq | hmem
  · cases heq
    exact hne rfl
  · exact hnothing writes' hmem

theorem Others.refl (s : TableShared π) (t : Append π) : Others t s s :=
  ⟨fun _ h => h, fun _ _ h => h, id⟩

theorem Running.others {code : TableProc π Unit} (h : Running s t code)
    (hothers : Others t s s') : Running s' t code := by
  rcases h with ⟨hcode, hnothing⟩ | ⟨k, hprogress, hcode⟩
  · exact .inl ⟨hcode, hothers.nothing hnothing⟩
  · exact .inr ⟨k, hprogress.others hothers, hcode⟩

/-- A call that has returned has stored everything. -/
theorem Running.pure (h : Running s t (pure ())) : AllStored s t := by
  rcases h with ⟨hcode, -⟩ | ⟨k, hprogress, hcode⟩
  · nomatch hcode
  · intro j event hevent
    have hlen := List.drop_eq_nil_iff.mp (insertEvents_eq_pure hcode.symm)
    have hlt := (List.getElem?_eq_some_iff.mp hevent).1
    exact hprogress.stored j event (by omega) hevent

theorem Running.not_throw {code : TableProc π Unit} {err : Err} (h : Running s t code) :
    code ≠ throw err := by
  rintro rfl
  rcases h with ⟨hcode, -⟩ | ⟨k, -, hcode⟩
  · nomatch hcode
  · exact insertEvents_ne_throw _ _ _ err hcode.symm

/-- A call at a SELECT has not begun, and goes on to the first insert or throws. -/
theorem Running.read {next : Table π → TableProc π Unit} (h : Running s t (.read next)) :
    NothingStored s t ∧ ∀ db,
      next db = throw (.concurrencyError t.aggregateId t.expectedVersion) ∨
      next db = insertEvents t t.expectedVersion t.events := by
  rcases h with ⟨hcode, hnothing⟩ | ⟨k, hprogress, hcode⟩
  · refine ⟨hnothing, fun db => ?_⟩
    rw [append_eq] at hcode
    rw [Proc.read.inj hcode]
    dsimp only
    split
    · exact .inr rfl
    · exact .inl rfl
  · exact absurd hcode.symm (insertEvents_ne_read _ _ _ next)

/-- A call at an insert has stored the events before it. -/
theorem Running.tx {body : TableTx π Unit} {next : Except Err Unit → TableProc π Unit}
    (h : Running s t (.tx body next)) :
    ∃ k event, Progress s t k ∧ t.events[k]? = some event ∧
      body = insertRow (t.key k) (t.row event) ∧
      next (.ok ()) = insertEvents t (t.expectedVersion + (k + 1)) (t.events.drop (k + 1)) ∧
      ∀ err, next (.error err) = throw err := by
  rcases h with ⟨hcode, -⟩ | ⟨k, hprogress, hcode⟩
  · nomatch hcode
  · cases hrest : t.events.drop k with
    | nil =>
      rw [hrest] at hcode
      nomatch hcode
    | cons event rest =>
      rw [hrest, insertEvents_cons] at hcode
      obtain ⟨hbody, hnext⟩ := Proc.tx.inj hcode
      have hevent : t.events[k]? = some event := by
        rw [← List.head?_drop, hrest]
        rfl
      have htail : t.events.drop (k + 1) = rest := by
        rw [← List.tail_drop, hrest]
        rfl
      refine ⟨k, event, hprogress, hevent, hbody, ?_, fun err => ?_⟩
      · rw [hnext, htail]
        rfl
      · rw [hnext]
        rfl

end Progress

/-! ## Runs -/

section Run

variable {s s' : TableState π} {i : ℕ} {c : Choice (TableRow π) Err NoReply (Append π)}

/-- Every call is running or threw, and no two of them are the same call. -/
structure Inv (s : TableState π) : Prop where
  running : ∀ i job, s.jobs i = some job →
    Running s.shared job.task job.code ∨ ∃ err, job.code = throw err
  distinct : ∀ i j job job', s.jobs i = some job → s.jobs j = some job' → i ≠ j →
    job.task.call ≠ job'.task.call

/-- A call that waits for an insert has not thrown. -/
theorem Inv.at_tx (hs : Inv s) {t : Append π} {seen : Table π} {body : TableTx π Unit}
    {next : Except Err Unit → TableProc π Unit} (hi : s.jobs i = some ⟨t, seen, .tx body next⟩) :
    ∃ k event, Progress s.shared t k ∧ t.events[k]? = some event ∧
      body = insertRow (t.key k) (t.row event) ∧
      next (.ok ()) = insertEvents t (t.expectedVersion + (k + 1)) (t.events.drop (k + 1)) ∧
      ∀ err, next (.error err) = throw err := by
  rcases hs.running i _ hi with hrunning | ⟨err, hthrow⟩
  · exact hrunning.tx
  · nomatch hthrow

/-- A step is nothing to the calls that do not take it. -/
theorem Inv.others (hs : Inv s) (h : Step (appendSystem π) s i c s') {j : ℕ}
    {job : Job (TableRow π) Err NoReply (Append π)} (hj : s.jobs j = some job) (hne : j ≠ i) :
    Others job.task s.shared s'.shared := by
  cases h with
  | commit hi hexec =>
    have hcall := hs.distinct i j _ _ hi hj (Ne.symm hne)
    obtain ⟨k, event, -, -, hbody, -⟩ := hs.at_tx hi
    rw [hbody] at hexec
    exact .commit hcall hexec
  | act _ _ => rename_i a _ _ _ _; nomatch a
  | spawn _ _ => exact .refl _ _
  | read _ => exact .refl _ _
  | abort _ _ => exact .refl _ _
  | stop _ => exact .refl _ _

/-- The call's insert failed with `err`. -/
structure Failed (s : TableState π) (i : ℕ) (c : Choice (TableRow π) Err NoReply (Append π))
    (s' : TableState π) (job : Job (TableRow π) Err NoReply (Append π)) (err : Err) : Prop where
  choice : c = .abort err
  before : ∃ job₀, s.jobs i = some job₀ ∧ job₀.task = job.task
  code : job.code = throw err
  shared : s'.shared = s.shared
  cause : err = .uniqueViolation ∨ databaseFault err

/-- A call whose insert failed throws its error. -/
theorem Inv.failed (hs : Inv s) {err : Err} (h : Step (appendSystem π) s i (.abort err) s')
    {job : Job (TableRow π) Err NoReply (Append π)} (hj : s.jobs i = some job) :
    ∃ job', s'.jobs i = some job' ∧ job'.task = job.task ∧
      Failed s i (.abort err) s' job' err := by
  cases h with
  | abort hi herr =>
    obtain rfl := Option.some.inj (hi.symm.trans hj)
    obtain ⟨k, event, -, -, hbody, -, hnext⟩ := hs.at_tx hi
    rw [hbody] at herr
    exact ⟨_, State.set_jobs_self _ _ _, rfl, rfl, ⟨_, hi, rfl⟩, hnext _, rfl,
      herr.elim .inr insertRow_error⟩

/-- What the call that took a step is doing after it. -/
theorem Inv.self (hs : Inv s) (h : Step (appendSystem π) s i c s')
    {job : Job (TableRow π) Err NoReply (Append π)} (hj : s'.jobs i = some job) :
    Running s'.shared job.task job.code ∨ (∃ err, Failed s i c s' job err) ∨
      (c = .read ∧ NothingStored s'.shared job.task ∧
        job.code = throw (.concurrencyError job.task.aggregateId job.task.expectedVersion)) := by
  cases h with
  | spawn _ hspawn =>
    cases (State.set_jobs_self s i _).symm.trans hj
    exact .inl (.inl ⟨rfl, fun writes hmem => hspawn.2 _ writes hmem rfl⟩)
  | read hi =>
    cases (State.set_jobs_self s i _).symm.trans hj
    rcases hs.running i _ hi with hrunning | ⟨err, hthrow⟩
    · obtain ⟨hnothing, hnext⟩ := hrunning.read
      rcases hnext s.shared.db with hthrow | hinsert
      · exact .inr (.inr ⟨rfl, hnothing, hthrow⟩)
      · exact .inl (.inr ⟨0, ⟨Nat.zero_le _, nofun, fun _ => hnothing⟩, hinsert⟩)
    · nomatch hthrow
  | commit hi hexec =>
    cases (State.set_jobs_self s i _).symm.trans hj
    obtain ⟨k, event, hprogress, hevent, hbody, hnext, -⟩ := hs.at_tx hi
    rw [hbody] at hexec
    exact .inl (.inr ⟨k + 1, hprogress.insert hevent hexec, hnext⟩)
  | abort hi herr =>
    obtain ⟨job', hj', -, hfailed⟩ := hs.failed (.abort hi herr) hi
    obtain rfl := Option.some.inj (hj.symm.trans hj')
    exact .inr (.inl ⟨_, hfailed⟩)
  | act _ _ => rename_i a _ _ _ _; nomatch a
  | stop _ => cases (State.set_jobs_self s i _).symm.trans hj

/-- A call after a step was there before, or was just started. -/
theorem task_of_step (h : Step (appendSystem π) s i c s') {j : ℕ}
    {job : Job (TableRow π) Err NoReply (Append π)} (hj : s'.jobs j = some job) :
    (∃ job', s.jobs j = some job' ∧ job'.task = job.task) ∨
      j = i ∧ (appendSystem π).spawn s job.task := by
  by_cases hji : j = i
  · subst hji
    rcases h.task_of_jobs hj with ⟨job', hj', htask, -⟩ | ⟨hspawn, -⟩
    · exact .inl ⟨job', hj', htask⟩
    · exact .inr ⟨rfl, hspawn⟩
  · exact .inl ⟨job, (h.jobs_ne hji).symm.trans hj, rfl⟩

theorem Inv.step (hs : Inv s) (h : Step (appendSystem π) s i c s') : Inv s' where
  running := fun j job hj => by
    by_cases hji : j = i
    · subst hji
      rcases hs.self h hj with hrunning | ⟨err, hfailed⟩ | ⟨-, -, hthrow⟩
      · exact .inl hrunning
      · exact .inr ⟨err, hfailed.code⟩
      · exact .inr ⟨_, hthrow⟩
    · have hj' := (h.jobs_ne hji).symm.trans hj
      exact (hs.running j job hj').imp_left fun hrunning =>
        hrunning.others (hs.others h hj' hji)
  distinct := fun j k job job' hj hk hne => by
    rcases task_of_step h hj with ⟨job₀, hj₀, htask⟩ | ⟨rfl, hspawn⟩
    · rcases task_of_step h hk with ⟨job₁, hk₁, htask'⟩ | ⟨rfl, hspawn⟩
      · rw [← htask, ← htask']
        exact hs.distinct j k _ _ hj₀ hk₁ hne
      · rw [← htask]
        exact hspawn.1 j _ hj₀
    · rcases task_of_step h hk with ⟨job₁, hk₁, htask'⟩ | ⟨rfl, -⟩
      · rw [← htask']
        exact (hspawn.1 k _ hk₁).symm
      · exact absurd rfl hne

theorem inv_of_reach {G : TableGuard π} (h : Reach (appendSystem π) G s) : Inv s :=
  h.invariant (fun _ _ => ⟨nofun, nofun⟩) fun _ _ _ _ hs hstep _ => hs.step hstep

theorem atomic_step (hs : Inv s) (hatomic : AppendsAtomically s)
    (h : Step (appendSystem π) s i c s') (hg : FailsFirst s i c) : AppendsAtomically s' where
  returned := fun j job hj hcode => by
    rcases (hs.step h).running j job hj with hrunning | ⟨err, hthrow⟩
    · rw [hcode] at hrunning
      exact hrunning.pure
    · rw [hcode] at hthrow
      nomatch hthrow
  threw := fun j job err hj hcode => by
    by_cases hji : j = i
    · subst hji
      rcases hs.self h hj with hrunning | ⟨err', hfailed⟩ | ⟨-, hnothing, hthrow⟩
      · exact absurd hcode hrunning.not_throw
      · obtain ⟨job₀, hj₀, htask⟩ := hfailed.before
        obtain ⟨hne, hnothing⟩ := hg err' job₀ hfailed.choice hj₀
        obtain rfl := Proc.throw.inj (hcode.symm.trans hfailed.code)
        rw [hfailed.shared, ← htask]
        exact ⟨hnothing, .inr (hfailed.cause.resolve_left hne)⟩
      · obtain rfl := Proc.throw.inj (hcode.symm.trans hthrow)
        exact ⟨hnothing, .inl rfl⟩
    · have hj' := (h.jobs_ne hji).symm.trans hj
      obtain ⟨hnothing, herr⟩ := hatomic.threw j job err hj' hcode
      exact ⟨(hs.others h hj' hji).nothing hnothing, herr⟩

/-- **An append stores all its events or none, where only its first insert fails
and none finds its sequence taken**; and any other failure of an insert breaks
that. -/
theorem appendAtomic (π : Type) :
    (∀ s : TableLocks π, LockReach (appendSystem π) FailsFirst s → AppendsAtomically s.base) ∧
    ∀ (s : TableLocks π) (i : ℕ) (err : Err) (s' : TableState π),
      LockReach (appendSystem π) anything s →
      Step (appendSystem π) s.base i (.abort err) s' → ¬ FailsFirst s.base i (.abort err) →
      ¬ AppendsAtomically s' := by
  constructor
  · intro s h
    suffices hboth : Inv s.base ∧ AppendsAtomically s.base from hboth.2
    exact h.atomic.2.invariant (I := fun s => Inv s ∧ AppendsAtomically s)
      (fun _ _ => ⟨⟨nofun, nofun⟩, ⟨nofun, nofun⟩⟩)
      fun _ _ _ _ hs hstep hg => ⟨hs.1.step hstep, atomic_step hs.1 hs.2 hstep hg⟩
  · intro s i err s' h hstep hfails hatomic
    refine hfails fun err' job hchoice hj => ?_
    obtain rfl := Choice.abort.inj hchoice
    obtain ⟨job', hj', htask, hfailed⟩ := (inv_of_reach h.atomic.2).failed hstep hj
    obtain ⟨hnothing, hexcused⟩ := hatomic.threw i job' err hj' hfailed.code
    rw [hfailed.shared, htask] at hnothing
    refine ⟨?_, hnothing⟩
    rintro rfl
    rcases hexcused with hconflict | ⟨message, hfault⟩
    · nomatch hconflict
    · nomatch hfault

end Run

/-! ## Two writers -/

def someEvent : NewEvent Unit where
  type := "ORDER_CONFIRMED"
  payload := ()
  occurredAt := "t"
  correlationId := "c"

/-- Two events of a new order. -/
def firstTwo : Append Unit where
  call := 0
  aggregateId := order₁
  aggregateType := "Order"
  events := [someEvent, someEvent]
  expectedVersion := 0

/-- A third, after the first. -/
def second : Append Unit where
  call := 1
  aggregateId := order₁
  aggregateType := "Order"
  events := [someEvent]
  expectedVersion := 1

/-- `firstTwo` has read the version and stored one event. -/
def half : TableState Unit :=
  ((State.idle ⟨[], []⟩).set 0 (some ⟨firstTwo, [], append firstTwo⟩)).resume (fun _ _ => ()) 0 2

/-- `second` sees it and takes the next sequence. -/
def overtaken : TableState Unit :=
  (half.set 1 (some ⟨second, [], append second⟩)).resume (fun _ _ => ()) 1 2

theorem reach_half : Reach (appendSystem Unit) anything half := by
  have hspawned : Reach (appendSystem Unit) anything
      ((State.idle ⟨[], []⟩).set 0 (some ⟨firstTwo, [], append firstTwo⟩)) :=
    (Reach.start rfl).step (.spawn rfl ⟨nofun, nofun⟩) trivial
  exact hspawned.resume _ (fun _ _ _ => trivial) 0 2

theorem reach_overtaken : Reach (appendSystem Unit) anything overtaken := by
  have hspawned := reach_half.step (.spawn (i := 1) (t := second) rfl ?_) trivial
  · exact hspawned.resume _ (fun _ _ _ => trivial) 1 2
  · constructor
    · rintro (_ | i) job hj
      · obtain rfl := Option.some.inj hj
        decide
      · nomatch hj
    · intro t' writes hmem
      have htrace : half.shared.trace =
          [.committed firstTwo [⟨firstTwo.key 0, firstTwo.row someEvent⟩]] := rfl
      rw [htrace, List.mem_singleton] at hmem
      cases hmem
      decide

/-- Alone, `firstTwo` returns with both events stored; overtaken, its next insert
fails. -/
theorem appendAtomic_firstTwo :
    (∃ s : TableLocks Unit, AllStored s.base.shared firstTwo) ∧
      ∃ s', Step (appendSystem Unit) overtaken 0 (.abort .uniqueViolation) s' ∧
        ¬ AppendsAtomically s' := by
  constructor
  · have hspawned : Reach (appendSystem Unit) FailsFirst
        ((State.idle ⟨[], []⟩).set 0 (some ⟨firstTwo, [], append firstTwo⟩)) :=
      (Reach.start rfl).step (.spawn rfl ⟨by rintro _ _ ⟨⟩, by rintro _ _ ⟨⟩⟩)
        (by rintro _ _ ⟨⟩)
    let ended := (append firstTwo).burst (fun _ _ => ()) firstTwo 3 [] ⟨[], []⟩
    have hreturned : Reach (appendSystem Unit) FailsFirst
        { (State.idle ⟨[], []⟩).set 0 (some ended.1) with shared := ended.2 } :=
      Reach.burst (fun _ _ => ()) (fun _ _ => trivial) 3 _ _ _ hspawned (by
        refine ⟨by rintro _ _ ⟨⟩, ?_⟩
        show Proc.BurstMeets _ _ firstTwo _ 0 2 (insertEvents firstTwo 0 [someEvent, someEvent]) _ _
        rw [insertEvents_cons]
        unfold Proc.BurstMeets
        rw [insertRow_exec (by decide) rfl]
        refine ⟨by rintro _ _ ⟨⟩, ?_⟩
        show Proc.BurstMeets _ _ firstTwo _ 0 1 (insertEvents firstTwo 1 [someEvent]) _ _
        rw [insertEvents_cons]
        unfold Proc.BurstMeets
        rw [insertRow_exec (by decide) rfl]
        exact ⟨by rintro _ _ ⟨⟩, trivial⟩)
    exact ⟨_, ((appendAtomic Unit).1 _ hreturned.withLocks).returned 0 _ rfl rfl⟩
  · have hstep : Step (appendSystem Unit) overtaken 0 (.abort .uniqueViolation) _ :=
      .abort rfl (.inr rfl)
    refine ⟨_, hstep, (appendAtomic Unit).2 _ 0 _ _ reach_overtaken.withLocks hstep ?_⟩
    intro hfirst
    exact (hfirst .uniqueViolation _ rfl rfl).1 rfl

/-- The first of the two events is stored, and the error is not a `ConcurrencyError`. -/
theorem appendAtomic_fails : ¬ ∀ s : TableLocks Unit, LockReach (appendSystem Unit) anything s →
    AppendsAtomically s.base := by
  intro h
  have hreach := reach_overtaken.resume (fun _ _ => ()) (fun _ _ _ => trivial) 0 1
  obtain ⟨hnothing, -⟩ := (h _ hreach.withLocks).threw 0 _ _ rfl rfl
  exact hnothing _ (by right; left)

end PostgresEventStore

end Saganova
