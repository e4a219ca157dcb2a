import Saganova.OrchestratorRuns

/-!
# The orchestrator under failures

Any number of records are handled at once, each by one handler at a time; any
handler may crash between two steps, any publish, statement or offset commit
may fail, and a record whose offset is not committed may be delivered again.

The save that makes a saga COMPLETED or COMPENSATED comes before the publish of
its last command, and a redelivery that finds the row final ends without a
publish.  So a failure between the two loses the command
(`final_command_lost`).  Without one there, it is never lost
(`finalCommandsSurvive`).
-/

namespace Saganova

open Concurrency Decision

/-! ## The claim -/

/-- The same place on the same partition. -/
def Record.At {α β : Type} (r : Record α) (r' : Record β) : Prop :=
  r.topic = r'.topic ∧ r.partition = r'.partition ∧ r.offset = r'.offset

/-- The orchestrator over the event topics `log`: a record may be delivered
while its offset is not committed and no handler is at work on it. -/
def redeliverySystem (log : Topic → ℕ → ℕ → Option EventEnvelope) : System where
  code := code
  start := fun s => s.trace = []
  spawn := fun s t => ∃ r, t = .event r ∧ log r.topic r.partition r.offset = some r.value ∧
    ¬ EventAcknowledged s.shared r ∧
    ∀ i job r', s.jobs i = some job → job.task = .event r' → ¬ r'.At r
  reply := fun _ _ _ _ => True
  fault := databaseFault

/-- The command that ends a saga. -/
def finalCommand : SagaStatus → Option CommandType
  | .completed => some .confirmOrder
  | .compensated => some .cancelOrder
  | _ => none

/-- A handler of `r` saved the row of `o` with the status that `type` announces. -/
def WroteFinal (s : Shared) (r : Record EventEnvelope) (o : Uuid) (type : CommandType) : Prop :=
  ∃ w, Event.committed (.event r) w ∈ s.trace ∧
    ∃ row : SagaInstanceRow, Store.row w (.sagaInstance o) = some row ∧
      finalCommand row.status = some type

/-- A command of `type` for `o` was published. -/
def CommandSent (s : Shared) (type : CommandType) (o : Uuid) : Prop :=
  ∃ c ∈ commandsOf s, c.type = type ∧ c.payload.orderId = some o

instance (s : Shared) (type : CommandType) (o : Uuid) : Decidable (CommandSent s type o) :=
  inferInstanceAs (Decidable (∃ c ∈ commandsOf s, _ ∧ _))

/-- Once the offset of the message that ended a saga is committed, the command
that announces it has been published. -/
def FinalCommandsSurvive (s : Shared) : Prop :=
  ∀ r o type, WroteFinal s r o type → EventAcknowledged s r → CommandSent s type o

/-- No crash and no refused publish between the save that ends a saga and the
publish that announces it. -/
def NoFailureBeforeFinalCommand : Guard := fun s i c =>
  ∀ job r o type, s.jobs i = some job → job.task = .event r → WroteFinal s.shared r o type →
    ¬ CommandSent s.shared type o →
      c ≠ .stop ∧ ∀ topic message key e, c ≠ .act (.publish topic message key) (.error e)

/-! ## The order of a handler's steps -/

/-- The command of `type` for `o` is published before anything else. -/
def PublishesNext (type : CommandType) (o : Uuid) : Handler Unit → Prop
  | .act .randomUUID next => ∀ id, PublishesNext type o (next id)
  | .act .now next => ∀ time, PublishesNext type o (next time)
  | .act (.publish .sagaCommands (.command c) _) _ => c.type = type ∧ c.payload.orderId = some o
  | _ => False

/-- Nothing is left to do. -/
def Ended : Handler Unit → Prop
  | .pure _ | .throw _ => True
  | _ => False

/-- Every save of a final row is followed by its command, and the only offset
committed is that of `r`, at the very end. -/
def SavesThenPublishes (r : Record EventEnvelope) : Handler Unit → Prop
  | .pure _ | .throw _ => True
  | .read next => ∀ db, SavesThenPublishes r (next db)
  | .tx body next => (∀ db w, body.exec db [] = .ok ((), w) →
      ∀ (o : Uuid) (row : SagaInstanceRow) (type : CommandType),
        Store.row w (.sagaInstance o) = some row → finalCommand row.status = some type →
        PublishesNext type o (next (.ok ()))) ∧ ∀ res, SavesThenPublishes r (next res)
  | .act a next => (∀ res, SavesThenPublishes r (next res)) ∧
      ∀ topic partition offset, a = .commitOffsets topic partition offset →
        (topic = r.topic ∧ partition = r.partition ∧ offset = r.offset + 1) ∧
          ∀ res, Ended (next res)

section Order

variable {r : Record EventEnvelope}

theorem savesThenPublishes_commit :
    SavesThenPublishes r (commitOffsets r.topic r.partition (r.offset + 1)) := by
  refine ⟨fun res => ?_, fun topic partition offset h => ?_⟩
  · cases res <;> trivial
  · cases h
    exact ⟨⟨rfl, rfl, rfl⟩, fun res => by cases res <;> trivial⟩

theorem savesThenPublishes_publish (type : CommandType) (payload : Payload) (correlationId : String)
    {k : Handler Unit} (hk : SavesThenPublishes r k) :
    SavesThenPublishes r (do
      SagaCommandProducer.publish type (some payload) correlationId
      k) := by
  rw [SagaCommandProducer.publish_eq]
  refine ⟨fun id => ⟨fun issuedAt => ⟨fun res => ?_, ?_⟩, ?_⟩, ?_⟩
  · cases res with
    | ok u => exact hk
    | error e => trivial
  all_goals
    intro topic partition offset h
    cases h

/-- A save is of one row, and goes on with `k` or fails. -/
theorem savesThenPublishes_save (orderId : Uuid) (row : SagaInstanceRow) {k : Handler Unit}
    (hk : SavesThenPublishes r k)
    (hfinal : ∀ type, finalCommand row.status = some type → PublishesNext type orderId k) :
    SavesThenPublishes r (do
      saveRow orderId row
      k) := by
  refine ⟨fun db w hw o row' type hrow htype => ?_, fun res => ?_⟩
  · rw [exec_saveRow] at hw
    cases hw
    by_cases ho : o = orderId
    · subst ho
      rw [Store.row_cons_self] at hrow
      cases hrow
      exact hfinal type htype
    · rw [Store.row_cons_ne _ _ (by simpa using ho)] at hrow
      cases hrow
  · cases res with
    | ok u => exact hk
    | error e => trivial

theorem publishesNext_publish (type : CommandType) {payload : Payload} (correlationId : String)
    {o : Uuid} (k : Handler Unit) (hid : payload.orderId = some o) :
    PublishesNext type o (do
      SagaCommandProducer.publish type (some payload) correlationId
      k) := by
  rw [SagaCommandProducer.publish_eq]
  intro id issuedAt
  exact ⟨rfl, hid⟩

/-- Looking at the clock saves and publishes nothing. -/
theorem savesThenPublishes_now {k : Time → Handler Unit} (hk : ∀ time, SavesThenPublishes r (k time)) :
    SavesThenPublishes r (now >>= k) := by
  refine ⟨hk, fun topic partition offset h => ?_⟩
  cases h

/-- What the context of a final decision has to say: which order it is about. -/
def Decision.Names (orderId : Uuid) : Decision → Prop
  | .complete _ context | .cancel _ context _ => context.orderId = some orderId
  | .resave row => row.Open
  | _ => True

theorem savesThenPublishes_perform (orderId : Uuid) (correlationId : String) (decision : Decision)
    (hnames : decision.Names orderId) :
    SavesThenPublishes r (do
      perform orderId correlationId decision
      commitOffsets r.topic r.partition (r.offset + 1)) := by
  have hcommit : SavesThenPublishes r (commitOffsets r.topic r.partition (r.offset + 1)) :=
    savesThenPublishes_commit
  cases decision with
  | ignore => exact hcommit
  | fail e => trivial
  | resave row =>
    refine savesThenPublishes_save orderId _ hcommit fun type htype => ?_
    exfalso
    have hopen : row.Open := hnames
    cases hstatus : row.status <;> simp_all [SagaInstanceRow.Open, finalCommand]
  | start context =>
    simp only [perform, bind_assoc]
    refine savesThenPublishes_publish _ _ _ (savesThenPublishes_now fun time => ?_)
    exact savesThenPublishes_save orderId _ hcommit fun type htype => by cases htype
  | advance row context =>
    simp only [perform, bind_assoc]
    refine savesThenPublishes_now fun time => savesThenPublishes_publish _ _ _ ?_
    exact savesThenPublishes_save orderId _ hcommit fun type htype => by cases htype
  | complete row context =>
    simp only [perform, bind_assoc]
    refine savesThenPublishes_now fun time => savesThenPublishes_save orderId _ ?_ fun type htype => ?_
    · exact savesThenPublishes_publish _ _ _ hcommit
    · cases htype
      exact publishesNext_publish _ _ _ hnames
  | cancel row context step =>
    simp only [perform, bind_assoc]
    refine savesThenPublishes_now fun time => savesThenPublishes_save orderId _ ?_ fun type htype => ?_
    · exact savesThenPublishes_publish _ _ _ hcommit
    · cases htype
      exact publishesNext_publish _ _ _ hnames

/-- Every decision on a message names the order it is about. -/
theorem decisionOf_names {e : EventEnvelope} {orderId : Uuid}
    {decision : Option SagaInstanceRow → Decision} (h : decisionOf e = some (orderId, decision))
    (found : Option SagaInstanceRow) : (decision found).Names orderId := by
  obtain ⟨hid, ⟨-, items, -, rfl⟩ | ⟨-, -, rfl⟩⟩ := decisionOf_cases h
  · cases found <;> trivial
  · cases found with
    | none => trivial
    | some row =>
      have hspread : (row.context.spread e.payload).orderId = some orderId :=
        Payload.spread_orderId_of_some hid
      show (decideEvent (some row) e.type e.payload).Names orderId
      unfold decideEvent
      by_cases hfinal : row.status = .completed ∨ row.status = .compensated
      · simp only [if_pos hfinal]
        trivial
      · simp only [if_neg hfinal]
        split <;> repeat' split
        all_goals trivial

theorem code_savesThenPublishes (r : Record EventEnvelope) :
    SavesThenPublishes r (code (.event r)) := by
  show SavesThenPublishes r (do
    SagaEventConsumer.dispatch r.value
    commitOffsets r.topic r.partition (r.offset + 1))
  rcases dispatch_cases r.value with ⟨-, hend | ⟨e, hend⟩⟩ | ⟨orderId, decision, hdec, hdispatch⟩
  · rw [hend]
    exact savesThenPublishes_commit
  · rw [hend]
    trivial
  · rw [hdispatch]
    intro db
    exact savesThenPublishes_perform orderId r.value.correlationId _ (decisionOf_names hdec _)

end Order

/-! ## What a step adds to the trace -/

section Trace

variable {s : Shared} {t : Task} {r : Record EventEnvelope} {o : Uuid} {type : CommandType}

theorem eventAcknowledged_commit (w : Db) :
    EventAcknowledged (s.commit t w) r ↔ EventAcknowledged s r := by
  simp [EventAcknowledged]

/-- Only the commit of its offset acknowledges a record. -/
theorem eventAcknowledged_acted {a : Act} {res : Act.Reply a}
    (h : EventAcknowledged (s.acted t a res) r) :
    EventAcknowledged s r ∨
      (∃ r', t = .event r') ∧ a = .commitOffsets r.topic r.partition (r.offset + 1) := by
  obtain ⟨r', h⟩ := h
  rw [Shared.acted_trace, List.mem_cons] at h
  rcases h with h | h
  · cases h
    exact .inr ⟨⟨r', rfl⟩, rfl⟩
  · exact .inl ⟨r', h⟩

theorem wroteFinal_acted {a : Act} {res : Act.Reply a} :
    WroteFinal (s.acted t a res) r o type ↔ WroteFinal s r o type := by
  simp [WroteFinal]

/-- A commit of `t` ends a saga for `t` alone. -/
theorem wroteFinal_commit {w : Db} (h : WroteFinal (s.commit t w) r o type) :
    WroteFinal s r o type ∨ t = .event r ∧ ∃ row : SagaInstanceRow,
      Store.row w (.sagaInstance o) = some row ∧ finalCommand row.status = some type := by
  obtain ⟨w', hmem, hrow⟩ := h
  rw [Shared.commit_trace, List.mem_cons] at hmem
  rcases hmem with hmem | hmem
  · cases hmem
    exact .inr ⟨rfl, hrow⟩
  · exact .inl ⟨w', hmem, hrow⟩

theorem commandSent_commit (w : Db) : CommandSent (s.commit t w) type o ↔ CommandSent s type o := by
  unfold CommandSent
  rw [commandsOf_commit]

theorem CommandSent.acted (h : CommandSent s type o) (a : Act) (res : Act.Reply a) :
    CommandSent (s.acted t a res) type o := by
  obtain ⟨c, hc, hcommand⟩ := h
  refine ⟨c, ?_, hcommand⟩
  rw [commandsOf_acted]
  exact List.mem_append_left _ hc

theorem commandSent_publish {c : CommandEnvelope} (htype : c.type = type)
    (hid : c.payload.orderId = some o) (key : String) :
    CommandSent (s.acted t (.publish .sagaCommands (.command c) key) (.ok ())) type o := by
  refine ⟨c, ?_, htype, hid⟩
  rw [commandsOf_publish_ok]
  simp

end Trace

/-! ## The invariant -/

/-- What holds in every state of a run without such a failure. -/
structure CrashInv (log : Topic → ℕ → ℕ → Option EventEnvelope) (s : State) : Prop where
  /-- every handler handles a record of the log, in the right order of steps -/
  events : ∀ i job, s.jobs i = some job → ∃ r, job.task = .event r ∧
    log r.topic r.partition r.offset = some r.value ∧ SavesThenPublishes r job.code
  /-- one handler a record -/
  alone : ∀ i j job job' r r', s.jobs i = some job → s.jobs j = some job' →
    job.task = .event r → job'.task = .event r' → r.At r' → i = j
  /-- a handler whose record is acknowledged has nothing left to do -/
  ended : ∀ i job r, s.jobs i = some job → job.task = .event r → EventAcknowledged s.shared r →
    Ended job.code
  /-- a command still owed is what a handler is about to publish -/
  owed : ∀ r o type, WroteFinal s.shared r o type → ¬ CommandSent s.shared type o →
    ¬ EventAcknowledged s.shared r ∧
      ∃ i job, s.jobs i = some job ∧ job.task = .event r ∧ PublishesNext type o job.code

section Invariant

variable {log : Topic → ℕ → ℕ → Option EventEnvelope} {s s' : State} {i : ℕ}

theorem CrashInv.start (sh : Shared) (h : sh.trace = []) : CrashInv log (.idle sh) where
  events := by intro i job hj; cases hj
  alone := by intro i j job job' r r' hj; cases hj
  ended := by intro i job r hj; cases hj
  owed := by
    rintro r o type ⟨w, hmem, -⟩
    rw [show (State.idle sh : State).shared.trace = [] from h] at hmem
    cases hmem

/-- Job `i` took a step that others do not see: it was not about to publish a
command still owed, and where it is still there its record is not
acknowledged. -/
theorem CrashInv.quiet (inv : CrashInv log s) (hshared : s'.shared = s.shared)
    (hne : ∀ k, k ≠ i → s'.jobs k = s.jobs k)
    (hnew : ∀ job', s'.jobs i = some job' → ∃ r, job'.task = .event r ∧
      log r.topic r.partition r.offset = some r.value ∧ SavesThenPublishes r job'.code ∧
      ¬ EventAcknowledged s.shared r ∧
      ∀ k job r', k ≠ i → s.jobs k = some job → job.task = .event r' → ¬ r'.At r)
    (hold : ∀ job, s.jobs i = some job → ∀ r o type, job.task = .event r →
      WroteFinal s.shared r o type → ¬ CommandSent s.shared type o →
      ¬ PublishesNext type o job.code) : CrashInv log s' where
  events := by
    intro k job hk
    by_cases hki : k = i
    · subst hki
      obtain ⟨r, htask, hlog, hcode, -⟩ := hnew job hk
      exact ⟨r, htask, hlog, hcode⟩
    · exact inv.events k job ((hne k hki).symm.trans hk)
  alone := by
    intro k j job job' r r' hk hj hr hr' hat
    by_contra hkj
    by_cases hki : k = i
    · subst hki
      obtain ⟨r₁, hr₁, -, -, -, hothers⟩ := hnew job hk
      rw [hr] at hr₁
      cases hr₁
      refine hothers j job' r' (Ne.symm hkj) ((hne j (Ne.symm hkj)).symm.trans hj) hr' ?_
      exact ⟨hat.1.symm, hat.2.1.symm, hat.2.2.symm⟩
    · by_cases hji : j = i
      · subst hji
        obtain ⟨r₁, hr₁, -, -, -, hothers⟩ := hnew job' hj
        rw [hr'] at hr₁
        cases hr₁
        exact hothers k job r hki ((hne k hki).symm.trans hk) hr hat
      · exact hkj (inv.alone k j job job' r r' ((hne k hki).symm.trans hk)
          ((hne j hji).symm.trans hj) hr hr' hat)
  ended := by
    intro k job r hk hr hack
    rw [hshared] at hack
    by_cases hki : k = i
    · subst hki
      obtain ⟨r₁, hr₁, -, -, hunacked, -⟩ := hnew job hk
      rw [hr] at hr₁
      cases hr₁
      exact absurd hack hunacked
    · exact inv.ended k job r ((hne k hki).symm.trans hk) hr hack
  owed := by
    intro r o type hwrote hsent
    rw [hshared] at hwrote hsent ⊢
    obtain ⟨hunacked, k, job, hk, htask, hnext⟩ := inv.owed r o type hwrote hsent
    refine ⟨hunacked, k, job, ?_, htask, hnext⟩
    by_cases hki : k = i
    · subst hki
      exact absurd hnext (hold job hk r o type htask hwrote hsent)
    · exact (hne k hki).trans hk

/-- No other handler is at work on the record of job `i`. -/
theorem CrashInv.others (inv : CrashInv log s) {job : Job Row Err Act.Reply Task}
    {r : Record EventEnvelope} (hj : s.jobs i = some job) (htask : job.task = .event r) :
    ∀ k job' r', k ≠ i → s.jobs k = some job' → job'.task = .event r' → ¬ r'.At r :=
  fun k job' r' hki hk hr' hat => hki (inv.alone k i job' job r' r hk hj hr' htask hat)

/-- Where a handler has something left to do, its record is not acknowledged. -/
theorem CrashInv.unacked (inv : CrashInv log s) {job : Job Row Err Act.Reply Task}
    {r : Record EventEnvelope} (hj : s.jobs i = some job) (htask : job.task = .event r)
    (hcode : ¬ Ended job.code) : ¬ EventAcknowledged s.shared r :=
  fun hack => hcode (inv.ended i job r hj htask hack)

theorem CrashInv.commit (inv : CrashInv log s) {t : Task} {seen writes : Db} {body : DbTx Unit}
    {next : Except Err Unit → Handler Unit} (hj : s.jobs i = some ⟨t, seen, .tx body next⟩)
    (he : body.exec s.shared.db [] = .ok ((), writes)) :
    CrashInv log { s.set i (some ⟨t, seen, next (.ok ())⟩) with
      shared := s.shared.commit t writes } := by
  obtain ⟨r₀, htask, hlog, hsaves, hrest⟩ := inv.events i _ hj
  have hunacked : ¬ EventAcknowledged s.shared r₀ := inv.unacked hj htask id
  -- the jobs move on as in a step that others do not see
  have hmoved : CrashInv log (s.set i (some ⟨t, seen, next (.ok ())⟩)) := by
    refine inv.quiet rfl (fun k hk => State.set_jobs_ne s _ hk) (fun job' hjob' => ?_) ?_
    · rw [State.set_jobs_self] at hjob'
      cases hjob'
      exact ⟨r₀, htask, hlog, hrest _, hunacked, inv.others hj htask⟩
    · intro job hjob r o type _ _ _ hnext
      rw [hj] at hjob
      cases hjob
      exact hnext
  refine ⟨hmoved.events, hmoved.alone, ?_, ?_⟩
  · intro k job r hk hr hack
    exact hmoved.ended k job r hk hr ((eventAcknowledged_commit writes).mp hack)
  · intro r o type hwrote hsent
    have hsent' : ¬ CommandSent s.shared type o := fun h => hsent ((commandSent_commit writes).mpr h)
    have hack : EventAcknowledged (s.shared.commit t writes) r ↔ EventAcknowledged s.shared r :=
      eventAcknowledged_commit writes
    rcases wroteFinal_commit hwrote with hwrote | ⟨rfl, row, hrow, htype⟩
    · obtain ⟨hunacked', k, job, hk, hr, hnext⟩ := hmoved.owed r o type hwrote hsent'
      exact ⟨fun h => hunacked' (hack.mp h), k, job, hk, hr, hnext⟩
    · cases htask
      refine ⟨fun h => hunacked (hack.mp h), i, _, State.set_jobs_self s i _, rfl, ?_⟩
      exact hsaves s.shared.db writes he o row type hrow htype

/-- What is about to publish a command either publishes it, or only draws an id
or looks at the clock first. -/
theorem PublishesNext.act {type : CommandType} {o : Uuid} {a : Act} {next : Act.Reply a → Handler Unit}
    (h : PublishesNext type o (.act a next)) (res : Act.Reply a) :
    (PublishesNext type o (next res) ∧ ∀ topic partition offset,
      a ≠ .commitOffsets topic partition offset) ∨
    ∃ c key, a = .publish .sagaCommands (.command c) key ∧ c.type = type ∧
      c.payload.orderId = some o := by
  cases a with
  | randomUUID => exact .inl ⟨h res, by simp⟩
  | now => exact .inl ⟨h res, by simp⟩
  | publish topic message key =>
    cases topic <;> cases message <;> first | exact absurd h id | exact .inr ⟨_, key, rfl, h⟩
  | randomUUIDs => exact absurd h id
  | authorize params => exact absurd h id
  | refund pspReference amountCents reason => exact absurd h id
  | commitOffsets topic partition offset => exact absurd h id

theorem CrashInv.act (inv : CrashInv log s) {t : Task} {seen : Db} {a : Act} {res : Act.Reply a}
    {next : Act.Reply a → Handler Unit} (hj : s.jobs i = some ⟨t, seen, .act a next⟩)
    (hg : NoFailureBeforeFinalCommand s i (.act a res)) :
    CrashInv log { s.set i (some ⟨t, seen, next res⟩) with shared := s.shared.acted t a res } := by
  obtain ⟨r₀, htask, hlog, hsaves, hoffset⟩ := inv.events i _ hj
  have htask' : t = .event r₀ := htask
  have hunacked : ¬ EventAcknowledged s.shared r₀ := inv.unacked hj htask id
  have hothers := inv.others hj htask
  refine ⟨?_, ?_, ?_, ?_⟩
  · intro k job hk
    rcases State.jobs_set (s := s) hk with ⟨rfl, hjob⟩ | ⟨-, hk⟩
    · cases hjob
      exact ⟨r₀, htask, hlog, hsaves res⟩
    · exact inv.events k job hk
  · intro k k' job job' r r' hk hk' hr hr' hat
    -- the records of the jobs are those of before
    have before : ∀ {m : ℕ} {j : Job Row Err Act.Reply Task},
        (s.set i (some ⟨t, seen, next res⟩)).jobs m = some j →
        ∃ j₀, s.jobs m = some j₀ ∧ j₀.task = j.task := by
      intro m j hm
      rcases State.jobs_set hm with ⟨rfl, hjob⟩ | ⟨-, hm⟩
      · cases hjob
        exact ⟨_, hj, rfl⟩
      · exact ⟨j, hm, rfl⟩
    obtain ⟨j₀, hj₀, hsame⟩ := before hk
    obtain ⟨j₁, hj₁, hsame'⟩ := before hk'
    exact inv.alone k k' j₀ j₁ r r' hj₀ hj₁ (hsame.trans hr) (hsame'.trans hr') hat
  · intro k job r hk hr hack
    rcases State.jobs_set (s := s) hk with ⟨rfl, hjob⟩ | ⟨hki, hk⟩
    · cases hjob
      cases htask'.symm.trans hr
      rcases eventAcknowledged_acted hack with hack | ⟨-, ha⟩
      · exact absurd hack hunacked
      · exact (hoffset _ _ _ ha).2 res
    · rcases eventAcknowledged_acted hack with hack | ⟨-, ha⟩
      · exact inv.ended k job r hk hr hack
      · obtain ⟨⟨htopic, hpartition, hoff⟩, -⟩ := hoffset _ _ _ ha
        exact absurd ⟨htopic, hpartition, by omega⟩ (hothers k job r hki hk hr)
  · intro r o type hwrote hsent
    have hsent' : ¬ CommandSent s.shared type o := fun h => hsent (h.acted a res)
    have hwrote' : WroteFinal s.shared r o type := wroteFinal_acted.mp hwrote
    obtain ⟨hunacked', k, job, hk, hr, hnext⟩ := inv.owed r o type hwrote' hsent'
    by_cases hki : k = i
    · subst hki
      rw [hj] at hk
      cases hk
      rcases hnext.act res with ⟨hnext, hnocommit⟩ | ⟨c, key, rfl, htype, hid⟩
      · refine ⟨fun hack => ?_, k, _, State.set_jobs_self s k _, hr, hnext⟩
        rcases eventAcknowledged_acted hack with hack | ⟨-, ha⟩
        · exact hunacked' hack
        · exact hnocommit _ _ _ ha
      · exfalso
        -- the broker's answer: taken, or a refusal that the guard excludes
        cases res with
        | ok u => exact hsent (commandSent_publish htype hid key)
        | error e => exact (hg _ r o type hj hr hwrote' hsent').2 _ _ key e rfl
    · refine ⟨fun hack => ?_, k, job, (State.set_jobs_ne s _ hki).trans hk, hr, hnext⟩
      rcases eventAcknowledged_acted hack with hack | ⟨-, ha⟩
      · exact hunacked' hack
      · obtain ⟨⟨htopic, hpartition, hoff⟩, -⟩ := hoffset _ _ _ ha
        exact hothers k job r hki hk hr ⟨htopic, hpartition, by omega⟩

/-- Every step that meets the guard keeps the invariant. -/
theorem CrashInv.step (inv : CrashInv log s) {c : Choice Row Err Act.Reply Task}
    (h : Step (redeliverySystem log) s i c s') (hg : NoFailureBeforeFinalCommand s i c) :
    CrashInv log s' := by
  -- a job that had something other than a publish to do was owing nothing
  have notNext : ∀ {t : Task} {seen : Db} {p : Handler Unit}, s.jobs i = some ⟨t, seen, p⟩ →
      (∀ type o, ¬ PublishesNext type o p) → ∀ job, s.jobs i = some job → ∀ r o type,
        job.task = .event r → WroteFinal s.shared r o type → ¬ CommandSent s.shared type o →
        ¬ PublishesNext type o job.code := by
    intro t seen p hj hp job hjob r o type _ _ _
    rw [hj] at hjob
    cases hjob
    exact hp type o
  cases h with
  | spawn hj hspawn =>
    obtain ⟨r, rfl, hlog, hunacked, hfree⟩ := hspawn
    refine inv.quiet rfl (fun k hk => State.set_jobs_ne s _ hk) (fun job' hjob' => ?_)
      fun job hjob => ?_
    · rw [State.set_jobs_self] at hjob'
      cases hjob'
      exact ⟨r, rfl, hlog, code_savesThenPublishes r, hunacked, fun k job r' _ => hfree k job r'⟩
    · rw [hj] at hjob
      cases hjob
  | read hj =>
    obtain ⟨r, htask, hlog, hcode⟩ := inv.events i _ hj
    refine inv.quiet rfl (fun k hk => State.set_jobs_ne s _ hk) (fun job' hjob' => ?_)
      (notNext hj fun _ _ => id)
    rw [State.set_jobs_self] at hjob'
    cases hjob'
    exact ⟨r, htask, hlog, hcode _, inv.unacked hj htask id, inv.others hj htask⟩
  | commit hj he => exact inv.commit hj he
  | abort hj he =>
    obtain ⟨r, htask, hlog, -, hcode⟩ := inv.events i _ hj
    refine inv.quiet rfl (fun k hk => State.set_jobs_ne s _ hk) (fun job' hjob' => ?_)
      (notNext hj fun _ _ => id)
    rw [State.set_jobs_self] at hjob'
    cases hjob'
    exact ⟨r, htask, hlog, hcode _, inv.unacked hj htask id, inv.others hj htask⟩
  | act hj hr => exact inv.act hj hg
  | stop hj =>
    refine inv.quiet rfl (fun k hk => State.set_jobs_ne s _ hk) (fun job' hjob' => ?_) ?_
    · rw [State.set_jobs_self] at hjob'
      cases hjob'
    · intro job hjob r o type htask hwrote hsent _
      exact (hg job r o type hjob htask hwrote hsent).1 rfl

end Invariant

theorem crashInv {log : Topic → ℕ → ℕ → Option EventEnvelope} {s : State}
    (h : Reach (redeliverySystem log) NoFailureBeforeFinalCommand s) : CrashInv log s :=
  h.invariant CrashInv.start fun _ _ _ _ inv hstep hg => inv.step hstep hg

/-- **Where no failure comes between the save that ends a saga and the command
that announces it, the command is never lost.** -/
theorem finalCommandsSurvive (log : Topic → ℕ → ℕ → Option EventEnvelope) (s : State)
    (h : Reach (redeliverySystem log) NoFailureBeforeFinalCommand s) :
    FinalCommandsSurvive s.shared := by
  intro r o type hwrote hack
  by_contra hsent
  exact ((crashInv h).owed r o type hwrote hsent).1 hack

/-! ## A lost command -/

/-- The event's trace entry commits the offset of `r`. -/
def acknowledges (r : Record EventEnvelope) : Event Row Act.Reply Task → Bool
  | .acted (.event _) (.commitOffsets topic partition offset) (.ok ()) =>
    topic = r.topic ∧ partition = r.partition ∧ offset = r.offset + 1
  | _ => false

theorem eventAcknowledged_iff (s : Shared) (r : Record EventEnvelope) :
    EventAcknowledged s r ↔ s.trace.any (acknowledges r) = true := by
  rw [List.any_eq_true]
  constructor
  · rintro ⟨r', h⟩
    exact ⟨_, h, by simp [acknowledges]⟩
  · rintro ⟨e, he, hack⟩
    unfold acknowledges at hack
    split at hack
    · obtain ⟨rfl, rfl, rfl⟩ := of_decide_eq_true hack
      exact ⟨_, he⟩
    · cases hack

instance (s : Shared) (r : Record EventEnvelope) : Decidable (EventAcknowledged s r) :=
  decidable_of_iff _ (eventAcknowledged_iff s r).symm

/-- The log that holds the records of some deliveries. -/
def logOf (ds : List Delivery) (topic : Topic) (partition offset : ℕ) : Option EventEnvelope :=
  (ds.find? fun d => d.record.topic = topic ∧ d.record.partition = partition ∧
    d.record.offset = offset).map (·.envelope)

def createdOrder : Delivery :=
  checkoutMessage 0 .orderEvents .orderCreated
    { orderId := some order₁, customerId := some customer₁, totalCents := some 500
      items := some [{ sku := "A", qty := 1, unitPriceCents := 500 }] }

def failedReservation : Delivery :=
  checkoutMessage 0 .inventoryEvents .inventoryReservationFailed
    { orderId := some order₁, sku := some "A", reason := some "out of stock" }

abbrev failedCheckoutSystem : System := redeliverySystem (logOf [createdOrder, failedReservation])

/-- The rows and the trace when the saga of the order has started. -/
def startedCheckout : Shared := handle ⟨[], []⟩ createdOrder

theorem reach_startedCheckout : Reach failedCheckoutSystem anything (.idle startedCheckout) := by
  refine (Reach.start rfl).run (t := createdOrder.task) ?_ fun _ _ => trivial
  refine ⟨createdOrder.record, rfl, rfl, by decide +kernel, ?_⟩
  intro i job r' hj
  cases hj

/-- A broker that takes every message keeps the guard, as long as no process crashes. -/
theorem burstMeets_noFailure (d : Delivery) (hp : d.published = .ok ()) (st : State) (i n : ℕ)
    (p : Handler Unit) (seen : Db) (s : Shared) :
    p.BurstMeets NoFailureBeforeFinalCommand d.answer d.task st i n seen s := by
  refine Proc.burstMeets_of ?_ ?_ ?_ ?_ d.task st n p seen s
  · intro st job r o type _ _ _ _
    exact ⟨by simp, by simp⟩
  · intro st w job r o type _ _ _ _
    exact ⟨by simp, by simp⟩
  · intro st e job r o type _ _ _ _
    exact ⟨by simp, by simp⟩
  · intro st k a job r o type _ _ _ _
    refine ⟨by simp, fun topic message key e h => ?_⟩
    obtain ⟨rfl, hres⟩ := Choice.act.inj h
    have herror : d.published = .error e := eq_of_heq hres
    rw [hp] at herror
    cases herror

/-- Both records handled to their end: the saga ends and `CancelOrder` is out. -/
theorem finalCommandsSurvive_failedReservation :
    ∃ s : Shared, WroteFinal s failedReservation.record order₁ .cancelOrder ∧
      EventAcknowledged s failedReservation.record ∧ FinalCommandsSurvive s := by
  have hstarted := Reach.burst createdOrder.answer (fun _ _ => trivial) 9 _ [] _
    ((Reach.start (S := failedCheckoutSystem) (s := ⟨[], []⟩) rfl).step
      (.spawn (i := 0) (t := createdOrder.task) rfl ?_) ?_)
    (burstMeets_noFailure createdOrder rfl _ _ _ _ _ _)
  · have hended := Reach.burst failedReservation.answer (fun _ _ => trivial) 9 _ [] _
      (hstarted.step (.spawn (i := 1) (t := failedReservation.task) rfl ?_) ?_)
      (burstMeets_noFailure failedReservation rfl _ _ _ _ _ _)
    · refine ⟨_, ?_, ?_, finalCommandsSurvive _ _ hended⟩
      · exact ⟨_, List.mem_of_getElem? (i := 4) (by rfl), _, by rfl, by rfl⟩
      · decide +kernel
    · refine ⟨failedReservation.record, rfl, rfl, by decide +kernel, ?_⟩
      intro i job r' hj htask hat
      rcases State.jobs_set (s := .idle ⟨[], []⟩) hj with ⟨rfl, hjob⟩ | ⟨-, hj⟩
      · cases hjob
        rw [Proc.burst_task] at htask
        cases htask
        cases hat.1
      · cases hj
    · intro job r o type hj
      cases hj
  · refine ⟨createdOrder.record, rfl, rfl, by decide +kernel, ?_⟩
    intro i job r' hj
    cases hj
  · intro job r o type hj
    cases hj

/-- The process crashes right after the save: before its id, time and publish. -/
def crashedCheckout : Shared :=
  ((code failedReservation.task).burst failedReservation.answer failedReservation.task 3 []
    startedCheckout).2

theorem reach_crashedCheckout : Reach failedCheckoutSystem anything (.idle crashedCheckout) := by
  refine reach_startedCheckout.crash (t := failedReservation.task) ?_ (fun _ _ => trivial) 3
  refine ⟨failedReservation.record, rfl, rfl, by decide +kernel, ?_⟩
  intro i job r' hj
  cases hj

theorem reach_redelivered :
    Reach failedCheckoutSystem anything (.idle (handle crashedCheckout failedReservation)) := by
  refine reach_crashedCheckout.run (t := failedReservation.task) ?_ fun _ _ => trivial
  refine ⟨failedReservation.record, rfl, rfl, by decide +kernel, ?_⟩
  intro i job r' hj
  cases hj

/-- The redelivered event finds the saga COMPENSATED and is acknowledged;
`CancelOrder` was never published. -/
theorem final_command_lost : ¬ ∀ log s, Reach (redeliverySystem log) anything s →
    FinalCommandsSurvive s.shared := by
  intro h
  have hwrote : WroteFinal (handle crashedCheckout failedReservation) failedReservation.record order₁
      .cancelOrder := by
    exact ⟨_, List.mem_of_getElem? (i := 1) (by rfl), _, by rfl, by rfl⟩
  have hsent := h _ _ reach_redelivered failedReservation.record order₁ .cancelOrder hwrote
    (by decide +kernel)
  revert hsent
  decide +kernel

end Saganova
