import Saganova.JsonText
import Saganova.Services

/-!
# The audit log

`apps/audit-ledger-service`: one consumer of every topic, which inserts a row
for each message and then commits its offset.  Any number of sessions read the
partitions, each in offset order from the committed offset on; inserts and
offset commits may fail, with or without having taken effect, and a session may
be gone at any point.

Before an offset is committed its message has a row: of this delivery, or of an
earlier one, which the unique constraint then tells (`auditComplete`).
-/

namespace Saganova

open Concurrency

/-! ## Messages -/

namespace Json

/-- A property of a value that JSON.parse returned; `none` is undefined. -/
def get (name : String) : Json → Except Err (Option Json)
  | .null => .error (.typeError s!"Cannot read properties of null (reading '{name}')")
  | .obj fields => .ok (fields.lookup name)
  | _ => .ok none

/-- Not undefined, and not null. -/
def defined? : Option Json → Option Json
  | some .null => none
  | value => value

mutual

/-- U+0000 is in a string of the value, or in a name. -/
def hasNul : Json → Bool
  | .str s => !decide (TextFits s)
  | .arr elements => elementsHaveNul elements
  | .obj fields => fieldsHaveNul fields
  | _ => false

def elementsHaveNul : List Json → Bool
  | [] => false
  | element :: elements => element.hasNul || elementsHaveNul elements

def fieldsHaveNul : List (String × Json) → Bool
  | [] => false
  | (name, value) :: fields => !decide (TextFits name) || value.hasNul || fieldsHaveNul fields

end

end Json

structure TopicPartition where
  topic : String
  partition : ℕ
  deriving DecidableEq, Repr

/-- What the runtime and the database driver do: `JSON.parse`, which may throw,
and how a value that is no string is written to a text column. -/
structure Runtime where
  parse : String → Option Json
  columnText : Json → String

def Runtime.text (runtime : Runtime) : Json → String
  | .str s => s
  | value => runtime.columnText value

/-- The message at each offset, if there is one; its value may be null. -/
abbrev KafkaLog := TopicPartition → ℕ → Option (Option String)

/-! ## The service -/

/-- The unique constraint. -/
structure AuditKey where
  partition : TopicPartition
  offset : ℕ
  deriving DecidableEq, Repr

structure AuditRow where
  eventType : String
  aggregateId : Option String
  correlationId : String
  payload : Json

/-- What is written to TEXT columns, each of which has an index. -/
def AuditRow.texts (row : AuditRow) : List String :=
  row.eventType :: row.aggregateId.toList ++ [row.correlationId]

/-- The error of an insert whose values a column rejects. -/
def AuditRow.rejection (row : AuditRow) : Option Err :=
  if ∃ s ∈ row.texts, ¬ TextFits s then
    some (.queryFailed "invalid byte sequence for encoding \"UTF8\": 0x00")
  else if row.payload.hasNul then
    some (.queryFailed "unsupported Unicode escape sequence")
  else none

inductive AuditAct where
  | commitOffsets (partition : TopicPartition) (offset : ℕ)

abbrev AuditAct.Reply : AuditAct → Type := fun _ => Except Err Unit

abbrev AuditTable := Store fun _ : AuditKey => AuditRow
abbrev AuditTx := Tx (fun _ : AuditKey => AuditRow) Err
abbrev AuditProc := Proc (fun _ : AuditKey => AuditRow) Err AuditAct.Reply

namespace AuditLogRepository

def insert (key : AuditKey) (row : AuditRow) : AuditTx Unit :=
  match row.rejection with
  | some err => throw err
  | none => .lock key fun
    | some _ => throw .uniqueViolation
    | none => .put key row (pure ())

/-- A row that exists already is not written again. -/
def record (key : AuditKey) (row : AuditRow) : AuditProc Unit :=
  tryCatch (Proc.transaction (insert key row)) fun err =>
    if err = .uniqueViolation then pure () else throw err

end AuditLogRepository

namespace AuditKafkaConsumer

/-- The columns that are read off the envelope. -/
def auditRow (runtime : Runtime) (envelope : Json) : Except Err AuditRow := do
  let type ← envelope.get "type"
  let aggregateId ← envelope.get "aggregateId"
  let correlationId ← envelope.get "correlationId"
  let payload ← envelope.get "payload"
  pure
    { eventType := ((Json.defined? type).map runtime.text).getD "UNKNOWN"
      aggregateId := (Json.defined? aggregateId).map runtime.text
      correlationId := ((Json.defined? correlationId).map runtime.text).getD "UNKNOWN"
      payload := (Json.defined? payload).getD (.obj []) }

def commit (key : AuditKey) : AuditProc Unit := do
  Proc.ofExcept (← Proc.perform AuditAct.Reply (.commitOffsets key.partition (key.offset + 1)))

def eachMessage (runtime : Runtime) (key : AuditKey) : Option String → AuditProc Unit
  | none => pure ()
  | some value =>
    match runtime.parse value with
    -- an unparseable message is skipped
    | none => commit key
    | some envelope => do
      let row ← Proc.ofExcept (auditRow runtime envelope)
      AuditLogRepository.record key row
      commit key

theorem record_commit (key : AuditKey) (row : AuditRow) :
    AuditLogRepository.record key row >>= (fun _ => commit key) =
      .tx (AuditLogRepository.insert key row) fun r =>
        (tryCatch (Proc.ofExcept r) fun err =>
          if err = .uniqueViolation then pure () else throw err) >>= fun _ => commit key := rfl

theorem commit_eq (key : AuditKey) : commit key =
    .act (.commitOffsets key.partition (key.offset + 1))
      fun (r : Except Err Unit) => Proc.ofExcept r := rfl

end AuditKafkaConsumer

/-! ## Sessions -/

/-- A consumer that reads a partition: where it is, and what is left of the
handler of the message there. -/
structure AuditSession where
  partition : TopicPartition
  position : ℕ
  handler : Option (AuditProc Unit) := none

def AuditSession.key (session : AuditSession) : AuditKey := ⟨session.partition, session.position⟩

structure AuditState where
  auditLog : AuditTable
  committed : TopicPartition → ℕ
  sessions : ℕ → Option AuditSession

namespace AuditState

def setSession (s : AuditState) (i : ℕ) (session : Option AuditSession) : AuditState :=
  { s with sessions := Function.update s.sessions i session }

def setHandler (s : AuditState) (i : ℕ) (session : AuditSession) (handler : AuditProc Unit) :
    AuditState :=
  s.setSession i (some { session with handler := some handler })

def setCommitted (s : AuditState) (partition : TopicPartition) (offset : ℕ) : AuditState :=
  { s with committed := Function.update s.committed partition offset }

/-- Nothing was consumed yet, and everything is read from the beginning. -/
def empty : AuditState := ⟨[], fun _ => 0, fun _ => none⟩

end AuditState

/-- One step of a session. -/
inductive AuditStep (runtime : Runtime) (log : KafkaLog) : AuditState → AuditState → Prop
  /-- the partition is assigned, and read from its committed offset on -/
  | assign {s : AuditState} {i : ℕ} (partition : TopicPartition) : s.sessions i = none →
      AuditStep runtime log s (s.setSession i (some ⟨partition, s.committed partition, none⟩))
  | deliver {s : AuditState} {i : ℕ} {session : AuditSession} {value : Option String} :
      s.sessions i = some session → session.handler = none →
      log session.partition session.position = some value →
      AuditStep runtime log s (s.setHandler i session
        (AuditKafkaConsumer.eachMessage runtime session.key value))
  /-- there is no message at an offset -/
  | gap {s : AuditState} {i : ℕ} {session : AuditSession} :
      s.sessions i = some session → session.handler = none →
      log session.partition session.position = none →
      AuditStep runtime log s
        (s.setSession i (some { session with position := session.position + 1 }))
  /-- a statement succeeds; its client may not learn of it -/
  | insert {s : AuditState} {i : ℕ} {session : AuditSession} {body : AuditTx Unit}
      {next : Except Err Unit → AuditProc Unit} {writes : AuditTable} {reply : Except Err Unit} :
      s.sessions i = some session → session.handler = some (.tx body next) →
      body.exec s.auditLog [] = .ok ((), writes) →
      (reply = .ok () ∨ ∃ err, databaseFault err ∧ reply = .error err) →
      AuditStep runtime log s
        ({ s with auditLog := writes ++ s.auditLog }.setHandler i session (next reply))
  | insertFails {s : AuditState} {i : ℕ} {session : AuditSession} {body : AuditTx Unit}
      {next : Except Err Unit → AuditProc Unit} {err : Err} :
      s.sessions i = some session → session.handler = some (.tx body next) →
      (databaseFault err ∨ body.exec s.auditLog [] = .error err) →
      AuditStep runtime log s (s.setHandler i session (next (.error err)))
  /-- a commit of offsets takes effect, whatever the client learns -/
  | commitOffsets {s : AuditState} {i : ℕ} {session : AuditSession} {partition : TopicPartition}
      {offset : ℕ} {next : Except Err Unit → AuditProc Unit} (reply : Except Err Unit) :
      s.sessions i = some session →
      session.handler = some (.act (.commitOffsets partition offset) next) →
      AuditStep runtime log s
        ((s.setCommitted partition offset).setHandler i session (next reply))
  | commitFails {s : AuditState} {i : ℕ} {session : AuditSession} {act : AuditAct}
      {next : act.Reply → AuditProc Unit} (err : Err) :
      s.sessions i = some session → session.handler = some (.act act next) →
      AuditStep runtime log s (s.setHandler i session (next (.error err)))
  /-- the session goes on to the next message -/
  | returned {s : AuditState} {i : ℕ} {session : AuditSession} :
      s.sessions i = some session → session.handler = some (pure ()) →
      AuditStep runtime log s
        (s.setSession i (some ⟨session.partition, session.position + 1, none⟩))
  /-- the message is delivered again -/
  | threw {s : AuditState} {i : ℕ} {session : AuditSession} {err : Err} :
      s.sessions i = some session → session.handler = some (throw err) →
      AuditStep runtime log s (s.setSession i (some { session with handler := none }))
  /-- a crash or a rebalance, at any point -/
  | gone {s : AuditState} {i : ℕ} : AuditStep runtime log s (s.setSession i none)

/-- The runs from `s`. -/
inductive AuditRun (runtime : Runtime) (log : KafkaLog) (s : AuditState) : AuditState → Prop
  | refl : AuditRun runtime log s s
  | step {s₁ s₂ : AuditState} : AuditRun runtime log s s₁ → AuditStep runtime log s₁ s₂ →
    AuditRun runtime log s s₂

/-! ## What is audited -/

section

variable {runtime : Runtime} {log : KafkaLog} {table table' : AuditTable} {key : AuditKey}

/-- The row of the message at a key. -/
def Entry (runtime : Runtime) (log : KafkaLog) (key : AuditKey) (row : AuditRow) : Prop :=
  ∃ value envelope, log key.partition key.offset = some (some value) ∧
    runtime.parse value = some envelope ∧ AuditKafkaConsumer.auditRow runtime envelope = .ok row

/-- The message at a key has its row, if it has a value that parses. -/
def Audited (runtime : Runtime) (log : KafkaLog) (table : AuditTable) (key : AuditKey) : Prop :=
  ∀ value envelope, log key.partition key.offset = some (some value) →
    runtime.parse value = some envelope →
    ∃ row, AuditKafkaConsumer.auditRow runtime envelope = .ok row ∧
      Store.row table key = some row

theorem Entry.audited {row : AuditRow} (h : Entry runtime log key row)
    (hrow : Store.row table key = some row) : Audited runtime log table key := by
  obtain ⟨value, envelope, hvalue, hparse, hentry⟩ := h
  intro value' envelope' hvalue' hparse'
  obtain rfl := Option.some.inj (Option.some.inj (hvalue.symm.trans hvalue'))
  obtain rfl := Option.some.inj (hparse.symm.trans hparse')
  exact ⟨row, hentry, hrow⟩

/-- No row is lost or changed. -/
def NoneLost (table table' : AuditTable) : Prop :=
  ∀ key row, Store.row table key = some row → Store.row table' key = some row

theorem Audited.mono (h : Audited runtime log table key) (hkept : NoneLost table table') :
    Audited runtime log table' key := by
  intro value envelope hvalue hparse
  obtain ⟨row, hentry, hrow⟩ := h value envelope hvalue hparse
  exact ⟨row, hentry, hkept key row hrow⟩

/-- What can be left of the handler of the message at a key. -/
inductive AtMessage (runtime : Runtime) (log : KafkaLog) (table : AuditTable) (key : AuditKey) :
    AuditProc Unit → Prop
  | record {row : AuditRow} : Entry runtime log key row → AtMessage runtime log table key
      (AuditLogRepository.record key row >>= fun _ => AuditKafkaConsumer.commit key)
  | commit : Audited runtime log table key → AtMessage runtime log table key
      (AuditKafkaConsumer.commit key)
  | returned : Audited runtime log table key → AtMessage runtime log table key (pure ())
  | threw (err : Err) : AtMessage runtime log table key (throw err)

theorem AtMessage.mono {code : AuditProc Unit} (h : AtMessage runtime log table key code)
    (hkept : NoneLost table table') : AtMessage runtime log table' key code := by
  cases h with
  | record hentry => exact .record hentry
  | commit haudited => exact .commit (haudited.mono hkept)
  | returned haudited => exact .returned (haudited.mono hkept)
  | threw err => exact .threw err

theorem atMessage_eachMessage {value : Option String}
    (hvalue : log key.partition key.offset = some value) :
    AtMessage runtime log table key (AuditKafkaConsumer.eachMessage runtime key value) := by
  cases value with
  | none =>
    refine .returned fun value' envelope hvalue' => ?_
    nomatch hvalue.symm.trans hvalue'
  | some text =>
    cases hparse : runtime.parse text with
    | none =>
      simp only [AuditKafkaConsumer.eachMessage, hparse]
      refine .commit fun value' envelope hvalue' hparse' => ?_
      obtain rfl := Option.some.inj (Option.some.inj (hvalue.symm.trans hvalue'))
      nomatch hparse.symm.trans hparse'
    | some envelope =>
      cases hrow : AuditKafkaConsumer.auditRow runtime envelope with
      | error err =>
        simp only [AuditKafkaConsumer.eachMessage, hparse, hrow]
        exact .threw err
      | ok row =>
        simp only [AuditKafkaConsumer.eachMessage, hparse, hrow]
        exact .record ⟨text, envelope, hvalue, hparse, hrow⟩

theorem AuditRow.databaseFault_rejection {row : AuditRow} {err : Err}
    (h : row.rejection = some err) : databaseFault err := by
  unfold AuditRow.rejection at h
  split at h
  · exact ⟨_, (Option.some.inj h).symm⟩
  · split at h
    · exact ⟨_, (Option.some.inj h).symm⟩
    · cases h

/-- An insert that succeeds found its key free, and writes its row. -/
theorem exec_insert_ok {row : AuditRow} {writes : AuditTable}
    (h : (AuditLogRepository.insert key row).exec table [] = .ok ((), writes)) :
    Store.row table key = none ∧ writes = [⟨key, row⟩] := by
  unfold AuditLogRepository.insert at h
  split at h
  · cases h
  · exact Tx.exec_insert_ok (fun _ => rfl) rfl h

/-- One that fails by itself was rejected by a column, or found a row. -/
theorem exec_insert_error {row : AuditRow} {err : Err}
    (h : (AuditLogRepository.insert key row).exec table [] = .error err) :
    row.rejection = some err ∨ err = .uniqueViolation ∧ ∃ old, Store.row table key = some old := by
  unfold AuditLogRepository.insert at h
  split at h
  · rename_i err' heq
    obtain rfl := Except.error.inj h
    exact .inl heq
  · exact .inr (Tx.exec_insert_error (fun _ => rfl) rfl h)

theorem noneLost_insert {row : AuditRow} (hfree : Store.row table key = none) :
    NoneLost table (⟨key, row⟩ :: table) :=
  fun _ _ hrow => Store.row_cons_of_free hfree hrow

/-! ## The invariant -/

/-- Every row is that of its message, and every message before a committed
offset, or before where a session is, is audited. -/
structure AuditInv (runtime : Runtime) (log : KafkaLog) (s : AuditState) : Prop where
  nodup : (s.auditLog.map Sigma.fst).Nodup
  entry : ∀ key row, Store.row s.auditLog key = some row → Entry runtime log key row
  committed : ∀ partition, ∀ o < s.committed partition,
    Audited runtime log s.auditLog ⟨partition, o⟩
  passed : ∀ i session, s.sessions i = some session → ∀ o < session.position,
    Audited runtime log s.auditLog ⟨session.partition, o⟩
  handler : ∀ i session code, s.sessions i = some session → session.handler = some code →
    AtMessage runtime log s.auditLog session.key code

namespace AuditInv

variable {s s' : AuditState} {i : ℕ} {session : AuditSession}

theorem setSession (hs : AuditInv runtime log s) {new : Option AuditSession}
    (hpassed : ∀ session, new = some session → ∀ o < session.position,
      Audited runtime log s.auditLog ⟨session.partition, o⟩)
    (hhandler : ∀ session code, new = some session → session.handler = some code →
      AtMessage runtime log s.auditLog session.key code) :
    AuditInv runtime log (s.setSession i new) where
  nodup := hs.nodup
  entry := hs.entry
  committed := hs.committed
  passed := fun j session hj => by
    rcases update_eq_some hj with ⟨rfl, rfl⟩ | ⟨-, hj'⟩
    · exact hpassed session rfl
    · exact hs.passed j session hj'
  handler := fun j session code hj => by
    rcases update_eq_some hj with ⟨rfl, rfl⟩ | ⟨-, hj'⟩
    · exact hhandler session code rfl
    · exact hs.handler j session code hj'

/-- A session goes on to the next message, or to the same one again. -/
theorem setIdle (hs : AuditInv runtime log s) (hidle : session.handler = none)
    (hpassed : ∀ o < session.position, Audited runtime log s.auditLog ⟨session.partition, o⟩) :
    AuditInv runtime log (s.setSession i (some session)) := by
  refine hs.setSession (fun new hnew => ?_) (fun new code hnew hcode => ?_)
  · obtain rfl := Option.some.inj hnew
    exact hpassed
  · obtain rfl := Option.some.inj hnew
    nomatch hidle.symm.trans hcode

/-- The handler of a session goes on. -/
theorem setHandler (hs : AuditInv runtime log s) (hi : s.sessions i = some session)
    {code : AuditProc Unit} (hcode : AtMessage runtime log s.auditLog session.key code) :
    AuditInv runtime log (s.setHandler i session code) := by
  refine hs.setSession ?_ ?_
  · intro new hnew
    obtain rfl := Option.some.inj hnew
    exact hs.passed i session hi
  · intro new code' hnew hcode'
    obtain rfl := Option.some.inj hnew
    obtain rfl := Option.some.inj hcode'
    exact hcode

theorem setCommitted (hs : AuditInv runtime log s) {partition : TopicPartition} {offset : ℕ}
    (h : ∀ o < offset, Audited runtime log s.auditLog ⟨partition, o⟩) :
    AuditInv runtime log (s.setCommitted partition offset) := by
  refine ⟨hs.nodup, hs.entry, fun partition' => ?_, hs.passed, hs.handler⟩
  by_cases hpartition : partition' = partition
  · subst hpartition
    simpa [AuditState.setCommitted] using h
  · simpa [AuditState.setCommitted, hpartition] using hs.committed partition'

theorem insert (hs : AuditInv runtime log s) {row : AuditRow}
    (hfree : Store.row s.auditLog key = none) (hentry : Entry runtime log key row) :
    AuditInv runtime log { s with auditLog := ⟨key, row⟩ :: s.auditLog } := by
  have hkept : NoneLost s.auditLog (⟨key, row⟩ :: s.auditLog) := noneLost_insert hfree
  refine ⟨?_, fun key' row' hrow => ?_,
    fun partition o ho => (hs.committed partition o ho).mono hkept,
    fun j session hj o ho => (hs.passed j session hj o ho).mono hkept,
    fun j session code hj hcode => (hs.handler j session code hj hcode).mono hkept⟩
  · rw [List.map_cons, List.nodup_cons]
    refine ⟨fun hmem => ?_, hs.nodup⟩
    obtain ⟨row', hrow'⟩ := Option.isSome_iff_exists.mp (List.dlookup_isSome.mpr hmem)
    nomatch hfree.symm.trans hrow'
  · by_cases hkey : key' = key
    · subst hkey
      obtain rfl := Option.some.inj ((Store.row_cons_self _ _ _).symm.trans hrow)
      exact hentry
    · exact hs.entry key' row' ((Store.row_cons_ne _ _ hkey).symm.trans hrow)

/-- A handler at a statement is at its insert. -/
theorem at_tx {body : AuditTx Unit} {next : Except Err Unit → AuditProc Unit}
    (hs : AuditInv runtime log s) (hi : s.sessions i = some session)
    (hcode : session.handler = some (.tx body next)) :
    ∃ row, Entry runtime log session.key row ∧
      body = AuditLogRepository.insert session.key row ∧
      next (.ok ()) = AuditKafkaConsumer.commit session.key ∧
      next (.error .uniqueViolation) = AuditKafkaConsumer.commit session.key ∧
      ∀ err, databaseFault err → next (.error err) = throw err := by
  generalize hcode' : (Proc.tx body next : AuditProc Unit) = code at hcode
  cases hs.handler i session code hi hcode with
  | @record row hentry =>
    rw [AuditKafkaConsumer.record_commit] at hcode'
    obtain ⟨hbody, hnext⟩ := Proc.tx.inj hcode'
    refine ⟨row, hentry, hbody, ?_, ?_, ?_⟩
    · rw [hnext]
      rfl
    · rw [hnext]
      rfl
    · rintro err ⟨message, rfl⟩
      rw [hnext]
      rfl
  | commit _ => nomatch hcode'
  | returned _ => nomatch hcode'
  | threw err => nomatch hcode'

/-- A handler at an action commits the offset after its message, which is audited. -/
theorem at_act {act : AuditAct} {next : act.Reply → AuditProc Unit}
    (hs : AuditInv runtime log s) (hi : s.sessions i = some session)
    (hcode : session.handler = some (.act act next)) :
    Audited runtime log s.auditLog session.key ∧
      act = .commitOffsets session.partition (session.position + 1) ∧
      next = fun reply => Proc.ofExcept reply := by
  generalize hcode' : (Proc.act act next : AuditProc Unit) = code at hcode
  cases hs.handler i session code hi hcode with
  | record _ => nomatch hcode'
  | commit haudited =>
    rw [AuditKafkaConsumer.commit_eq] at hcode'
    obtain ⟨rfl, hnext⟩ := Proc.act.inj hcode'
    exact ⟨haudited, rfl, eq_of_heq hnext⟩
  | returned _ => nomatch hcode'
  | threw err => nomatch hcode'

theorem at_pure (hs : AuditInv runtime log s) (hi : s.sessions i = some session)
    (hcode : session.handler = some (pure ())) : Audited runtime log s.auditLog session.key := by
  generalize hcode' : (pure () : AuditProc Unit) = code at hcode
  cases hs.handler i session code hi hcode with
  | record _ => nomatch hcode'
  | commit _ => nomatch hcode'
  | returned haudited => exact haudited
  | threw err => nomatch hcode'

/-- What was passed, and the message after it. -/
theorem passed_succ (hs : AuditInv runtime log s) (hi : s.sessions i = some session)
    (haudited : Audited runtime log s.auditLog session.key) :
    ∀ o < session.position + 1, Audited runtime log s.auditLog ⟨session.partition, o⟩ := by
  intro o ho
  rcases Nat.lt_succ_iff_lt_or_eq.mp ho with hlt | rfl
  · exact hs.passed i session hi o hlt
  · exact haudited

theorem step (hs : AuditInv runtime log s) (h : AuditStep runtime log s s') :
    AuditInv runtime log s' := by
  cases h with
  | assign partition _ => exact hs.setIdle rfl (hs.committed partition)
  | deliver hi _ hvalue => exact hs.setHandler hi (atMessage_eachMessage hvalue)
  | @gap i session hi hidle hnone =>
    have haudited : Audited runtime log s.auditLog session.key := by
      intro value envelope hvalue
      nomatch hnone.symm.trans hvalue
    exact hs.setIdle hidle (hs.passed_succ hi haudited)
  | @insert i session body next writes reply hi hcode hexec hreply =>
    obtain ⟨row, hentry, rfl, hok, -, hfault⟩ := hs.at_tx hi hcode
    obtain ⟨hfree, rfl⟩ := exec_insert_ok hexec
    refine (hs.insert hfree hentry).setHandler hi ?_
    rcases hreply with rfl | ⟨err, herr, rfl⟩
    · rw [hok]
      exact .commit (hentry.audited (Store.row_cons_self _ _ _))
    · rw [hfault err herr]
      exact .threw err
  | @insertFails i session body next err hi hcode herr =>
    obtain ⟨row, hentry, rfl, -, hunique, hfault⟩ := hs.at_tx hi hcode
    refine hs.setHandler hi ?_
    rcases herr with herr | herr
    · rw [hfault err herr]
      exact .threw err
    · obtain hrejected | ⟨rfl, old, hold⟩ := exec_insert_error herr
      · rw [hfault err (AuditRow.databaseFault_rejection hrejected)]
        exact .threw err
      · -- the row that is there is that of the same message
        rw [hunique]
        exact .commit ((hs.entry _ old hold).audited hold)
  | @commitOffsets i session partition offset next reply hi hcode =>
    obtain ⟨haudited, hact, rfl⟩ := hs.at_act hi hcode
    obtain ⟨rfl, rfl⟩ := AuditAct.commitOffsets.inj hact
    refine (hs.setCommitted (hs.passed_succ hi haudited)).setHandler hi ?_
    cases reply with
    | ok _ => exact .returned haudited
    | error err => exact .threw err
  | @commitFails i session act next err hi hcode =>
    obtain ⟨-, -, rfl⟩ := hs.at_act hi hcode
    exact hs.setHandler hi (.threw err)
  | @returned i session hi hcode =>
    exact hs.setIdle rfl (hs.passed_succ hi (hs.at_pure hi hcode))
  | @threw i session err hi _ => exact hs.setIdle rfl (hs.passed i session hi)
  | gone => exact hs.setSession nofun nofun

theorem empty : AuditInv runtime log AuditState.empty :=
  ⟨List.nodup_nil, nofun, nofun, nofun, nofun⟩

theorem run (hs : AuditInv runtime log s) (h : AuditRun runtime log s s') :
    AuditInv runtime log s' := by
  induction h with
  | refl => exact hs
  | step _ hstep ih => exact ih.step hstep

end AuditInv

/-! ## Runs -/

/-- A step adds rows, and changes none. -/
theorem AuditStep.suffix {s s' : AuditState} (h : AuditStep runtime log s s') :
    s.auditLog <:+ s'.auditLog := by
  cases h with
  | insert _ _ _ _ => exact List.suffix_append _ _
  | assign _ _ => exact List.suffix_rfl
  | deliver _ _ _ => exact List.suffix_rfl
  | gap _ _ _ => exact List.suffix_rfl
  | insertFails _ _ _ => exact List.suffix_rfl
  | commitOffsets _ _ _ => exact List.suffix_rfl
  | commitFails _ _ _ => exact List.suffix_rfl
  | returned _ _ => exact List.suffix_rfl
  | threw _ _ => exact List.suffix_rfl
  | gone => exact List.suffix_rfl

theorem AuditRun.suffix {s s' : AuditState} (h : AuditRun runtime log s s') :
    s.auditLog <:+ s'.auditLog := by
  induction h with
  | refl => exact List.suffix_rfl
  | step _ hstep ih => exact ih.trans hstep.suffix

end

/-- **The audit log is complete and free of duplicates.** -/
theorem auditComplete (runtime : Runtime) (log : KafkaLog) (s : AuditState)
    (h : AuditRun runtime log .empty s) :
    (s.auditLog.map Sigma.fst).Nodup ∧
      (∀ s', AuditRun runtime log s s' → s.auditLog <:+ s'.auditLog) ∧
      ∀ partition, ∀ o < s.committed partition, ∀ value envelope,
        log partition o = some (some value) → runtime.parse value = some envelope →
        ∃ row, AuditKafkaConsumer.auditRow runtime envelope = .ok row ∧
          ∀ row', ⟨⟨partition, o⟩, row'⟩ ∈ s.auditLog ↔ row' = row := by
  have hinv := AuditInv.empty.run h
  refine ⟨hinv.nodup, fun s' h' => h'.suffix, fun partition o ho value envelope hvalue hparse => ?_⟩
  obtain ⟨row, hentry, hrow⟩ := hinv.committed partition o ho value envelope hvalue hparse
  refine ⟨row, hentry, fun row' => ?_⟩
  rw [← List.mem_dlookup_iff hinv.nodup]
  show Store.row s.auditLog ⟨partition, o⟩ = some row' ↔ _
  rw [hrow, Option.some.injEq, eq_comm]

/-! ## A message delivered twice -/

def paymentEvents : TopicPartition := ⟨"payment.events", 0⟩

/-- Without a correlationId, and with a payload that is null. -/
def declinedText : String := "\x7b\"type\":\"PaymentDeclined\",\"payload\":null\x7d"

def declinedEnvelope : Json := .obj [("type", .str "PaymentDeclined"), ("payload", .null)]

theorem declinedText_eq : declinedText = declinedEnvelope.text := by decide +kernel

def declinedRuntime : Runtime where
  parse := Json.parse
  columnText := Json.text

theorem declined_parses : declinedRuntime.parse declinedText = some declinedEnvelope :=
  declinedText_eq ▸ parse_text ⟨by decide, trivial, trivial, trivial⟩

def declinedRow : AuditRow := ⟨"PaymentDeclined", none, "UNKNOWN", .obj []⟩

theorem eachMessage_declined (key : AuditKey) :
    AuditKafkaConsumer.eachMessage declinedRuntime key (some declinedText) =
      AuditLogRepository.record key declinedRow >>= fun _ => AuditKafkaConsumer.commit key := by
  unfold AuditKafkaConsumer.eachMessage
  simp only [declined_parses]
  rfl

def declinedLog : KafkaLog := fun partition offset =>
  if partition = paymentEvents ∧ offset = 0 then some (some declinedText) else none

/-- The commit fails after the first delivery, and succeeds after the second. -/
theorem auditComplete_twice : ∃ s, AuditRun declinedRuntime declinedLog .empty s ∧
    s.committed paymentEvents = 1 ∧ ∃ row, row.correlationId = "UNKNOWN" ∧
      ∀ row', ⟨⟨paymentEvents, 0⟩, row'⟩ ∈ s.auditLog ↔ row' = row := by
  have hvalue : declinedLog paymentEvents 0 = some (some declinedText) := rfl
  have hassigned : AuditRun declinedRuntime declinedLog .empty _ :=
    AuditRun.refl.step (.assign (i := 0) paymentEvents rfl)
  have hdelivered := hassigned.step (.deliver (i := 0) rfl rfl hvalue)
  rw [eachMessage_declined] at hdelivered
  have hinserted := hdelivered.step (.insert (i := 0) rfl rfl rfl (.inl rfl))
  have hfailed := hinserted.step (.commitFails (i := 0) (.kafka "not coordinator") rfl rfl)
  have hthrown := hfailed.step (.threw (i := 0) rfl rfl)
  have hagain := hthrown.step (.deliver (i := 0) rfl rfl hvalue)
  rw [eachMessage_declined] at hagain
  have hexisting := hagain.step (.insertFails (i := 0) rfl rfl (.inr rfl))
  have hcommitted := hexisting.step (.commitOffsets (i := 0) (.ok ()) rfl rfl)
  obtain ⟨-, -, hcomplete⟩ := auditComplete _ _ _ hcommitted
  obtain ⟨row, hrow, hrows⟩ := hcomplete paymentEvents 0 (by decide) _ _ hvalue declined_parses
  obtain rfl := Except.ok.inj hrow
  exact ⟨_, hcommitted, rfl, _, rfl, hrows⟩

end Saganova
