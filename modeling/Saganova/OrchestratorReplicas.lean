import Mathlib.Data.List.Chain
import Saganova.Concurrency.RelyGuarantee
import Saganova.OrchestratorCrashes

/-!
# Orchestrator replicas

Any number of handlers on any number of replicas.  `wp_event` is the rule for
the orchestrator's handler under any protocol: it reads a row, may save one,
and commits the offset of its record.

A save writes the whole row over whatever is there, so a handler that read an
older row rewinds the saga (`saga_rewound`).  Where every save finds the row as
its handler had read it, the saga only moves forward (`sagaOnlyMovesForward`).
-/

namespace Saganova

open Concurrency Decision

/-! ## The rule for a handler -/

/-- The rows that a decision may save. -/
def Decision.Writes (correlationId : String) : Decision → SagaInstanceRow → Prop
  | .ignore, _ | .fail _, _ => False
  | .start context, row => ∃ time, row = startedRow context time correlationId
  | .resave old, row => row = { old with correlationId }
  | .advance old context, row => ∃ time, row = advancedRow old context time correlationId
  | .complete old context, row => ∃ time, row = completedRow old context time correlationId
  | .cancel old context step, row =>
    ∃ time, row = cancelledRow old context step time correlationId

/-- The commands that a decision may publish. -/
def Decision.Publishes (correlationId : String) : Decision → CommandEnvelope → Prop
  | .ignore, _ | .fail _, _ | .resave _, _ => False
  | .start context, c => c.correlationId = correlationId ∧ c.type = .reserveStock ∧
    c.payload = { orderId := context.orderId, lines := context.lines }
  | .advance _ context, c => c.correlationId = correlationId ∧ c.type = .authorizePayment ∧
    c.payload = { orderId := context.orderId, customerId := context.customerId
                  amountCents := context.amountCents }
  | .complete _ context, c => c.correlationId = correlationId ∧ c.type = .confirmOrder ∧
    c.payload = { orderId := context.orderId, paymentId := context.paymentId }
  | .cancel _ context step, c => c.correlationId = correlationId ∧ c.type = .cancelOrder ∧
    c.payload = { orderId := context.orderId
                  reason := some s!"Saga failed at step \"{step}\"" }

section Rule

variable {S : System} {P : Protocol Row Err Act.Reply Task} {t : Task} {seen : Db} {s : Shared}

/-- What the handler of `t`, having last read `seen`, may do outside the
database before it commits its offset. -/
structure AllowsActs (P : Protocol Row Err Act.Reply Task) (t : Task) (seen : Db)
    (publishes : CommandEnvelope → Prop) : Prop where
  randomUUID : ∀ s (id : Uuid), P.guar t seen s (s.acted t .randomUUID id)
  now : ∀ s (time : Time), P.guar t seen s (s.acted t .now time)
  publish : ∀ s c key res, publishes c →
    P.guar t seen s (s.acted t (.publish .sagaCommands (.command c) key) res)

theorem wp_act {α : Type} {Q : Post Row Err Act.Reply Task α} (a : Act)
    (ha : ∀ s res, P.guar t seen s (s.acted t a res)) {next : Act.Reply a → Handler α}
    (h : ∀ s' res, P.rely s s' → (next res).wp S P t Q seen s') :
    Proc.wp S P t Q (.act a next) seen s := by
  intro s' hrely hinv res _ _
  have hguar : P.guar t seen s' (s'.acted t a res) := ha s' res
  exact ⟨hguar, h _ res (P.rely_trans hrely (P.guar_rely hinv hguar))⟩

theorem wp_publish {publishes : CommandEnvelope → Prop} {Q : Post Row Err Act.Reply Task Unit}
    (hacts : AllowsActs P t seen publishes) {type : CommandType} {payload : Payload}
    {correlationId : String}
    (hc : ∀ id issuedAt, publishes
      { id, type, version := eventEnvelopeVersion, correlationId, issuedAt, payload })
    (h : ∀ res s', P.rely s s' → Q res seen s') :
    (SagaCommandProducer.publish type (some payload) correlationId).wp S P t Q seen s := by
  rw [SagaCommandProducer.publish_eq]
  refine wp_act .randomUUID hacts.randomUUID fun s₁ id h₁ => ?_
  refine wp_act .now hacts.now fun s₂ issuedAt h₂ => ?_
  refine wp_act _ (fun s res => hacts.publish s _ _ res (hc id issuedAt)) fun s₃ res h₃ => ?_
  have hrely : P.rely s s₃ := P.rely_trans h₁ (P.rely_trans h₂ h₃)
  cases res with
  | ok u => exact h _ _ hrely
  | error e => exact h _ _ hrely

/-- A save that commits writes its row and nothing else. -/
theorem wp_saveRow {Q : Post Row Err Act.Reply Task Unit} (orderId : Uuid) (row : SagaInstanceRow)
    (hsave : ∀ s', P.rely s s' → P.inv s' →
      P.assume t seen s' (.commit [⟨.sagaInstance orderId, row⟩]) →
      P.guar t seen s' (s'.commit t [⟨.sagaInstance orderId, row⟩]) ∧
        Q (.ok ()) seen (s'.commit t [⟨.sagaInstance orderId, row⟩]))
    (herror : ∀ e s', P.rely s s' → Q (.error e) seen s') :
    (saveRow orderId row).wp S P t Q seen s := by
  intro s' hrely hinv
  refine ⟨fun w hw ha => ?_, fun e _ _ => herror e s' hrely⟩
  rw [exec_saveRow] at hw
  cases hw
  exact hsave s' hrely hinv ha

/-- A decision ends well where it had nothing to do or has saved its row. -/
theorem wp_perform {Q : Post Row Err Act.Reply Task Unit} (orderId : Uuid)
    (correlationId : String) (decision : Decision)
    (hacts : AllowsActs P t seen (decision.Publishes correlationId))
    (hsave : ∀ row, decision.Writes correlationId row → ∀ s', P.rely s s' → P.inv s' →
      P.assume t seen s' (.commit [⟨.sagaInstance orderId, row⟩]) →
      P.guar t seen s' (s'.commit t [⟨.sagaInstance orderId, row⟩]) ∧
        ∀ s'', P.rely (s'.commit t [⟨.sagaInstance orderId, row⟩]) s'' → Q (.ok ()) seen s'')
    (hignore : decision = .ignore → Q (.ok ()) seen s)
    (herror : ∀ e s', P.rely s s' → Q (.error e) seen s') :
    (perform orderId correlationId decision).wp S P t Q seen s := by
  -- a save as the last step, and one that a publish follows
  have last : ∀ row, decision.Writes correlationId row → ∀ s₁, P.rely s s₁ →
      (saveRow orderId row).wp S P t Q seen s₁ := by
    intro row hrow s₁ h₁
    refine wp_saveRow orderId row (fun s' hrely hinv ha => ?_) fun e s' hrely =>
      herror e s' (P.rely_trans h₁ hrely)
    obtain ⟨hguar, hQ⟩ := hsave row hrow s' (P.rely_trans h₁ hrely) hinv ha
    exact ⟨hguar, hQ _ (P.rely_refl _)⟩
  have announced : ∀ row, decision.Writes correlationId row → ∀ s₁, P.rely s s₁ →
      ∀ type payload, (∀ id issuedAt, decision.Publishes correlationId
        { id, type, version := eventEnvelopeVersion, correlationId, issuedAt, payload }) →
      Proc.wp S P t Q (do
        saveRow orderId row
        SagaCommandProducer.publish type (some payload) correlationId) seen s₁ := by
    intro row hrow s₁ h₁ type payload hc
    refine Proc.wp_bind _ _ (wp_saveRow orderId row (fun s' hrely hinv ha => ?_)
      fun e s' hrely => herror e s' (P.rely_trans h₁ hrely))
    obtain ⟨hguar, hQ⟩ := hsave row hrow s' (P.rely_trans h₁ hrely) hinv ha
    refine ⟨hguar, wp_publish hacts hc fun res s'' hrely' => ?_⟩
    cases res with
    | ok u => exact hQ s'' hrely'
    | error e =>
      exact herror e s'' (P.rely_trans (P.rely_trans h₁ hrely)
        (P.rely_trans (P.guar_rely hinv hguar) hrely'))
  cases decision with
  | ignore => exact hignore rfl
  | fail e => exact herror e s (P.rely_refl _)
  | resave old => exact last _ rfl s (P.rely_refl _)
  | start context =>
    refine Proc.wp_bind _ _ (wp_publish hacts (fun _ _ => ⟨rfl, rfl, rfl⟩) fun res s₁ h₁ => ?_)
    cases res with
    | error e => exact herror e s₁ h₁
    | ok u =>
      exact wp_act .now hacts.now fun s₂ time h₂ => last _ ⟨time, rfl⟩ s₂ (P.rely_trans h₁ h₂)
  | advance old context =>
    simp only [perform, now_bind]
    refine wp_act .now hacts.now fun s₁ time h₁ => ?_
    refine Proc.wp_bind _ _ (wp_publish hacts (fun _ _ => ⟨rfl, rfl, rfl⟩) fun res s₂ h₂ => ?_)
    cases res with
    | error e => exact herror e s₂ (P.rely_trans h₁ h₂)
    | ok u => exact last _ ⟨time, rfl⟩ s₂ (P.rely_trans h₁ h₂)
  | complete old context =>
    exact wp_act .now hacts.now fun s₁ time h₁ =>
      announced _ ⟨time, rfl⟩ s₁ h₁ _ _ fun _ _ => ⟨rfl, rfl, rfl⟩
  | cancel old context step =>
    exact wp_act .now hacts.now fun s₁ time h₁ =>
      announced _ ⟨time, rfl⟩ s₁ h₁ _ _ fun _ _ => ⟨rfl, rfl, rfl⟩

/-- The handler of `r` may commit its offset from `s` on, having last read `seen`. -/
def MayCommitOffset (P : Protocol Row Err Act.Reply Task) (r : Record EventEnvelope) (seen : Db)
    (s : Shared) : Prop :=
  ∀ s', P.rely s s' → P.inv s' → ∀ res,
    P.assume (.event r) seen s' (.act (.commitOffsets r.topic r.partition (r.offset + 1)) res) →
    P.guar (.event r) seen s'
      (s'.acted (.event r) (.commitOffsets r.topic r.partition (r.offset + 1)) res)

/-- **The orchestrator's handler under a protocol.**  What is left to show is
what it reads allows: each save, and the commit of the offset at the end. -/
theorem wp_event (r : Record EventEnvelope)
    (hacts : ∀ (db : Db) orderId decision, decisionOf r.value = some (orderId, decision) →
      AllowsActs P (.event r) db
        ((decision (Store.row db (.sagaInstance orderId))).Publishes r.value.correlationId))
    (hnone : decisionOf r.value = none → MayCommitOffset P r seen s)
    (hread : ∀ s₁, P.rely s s₁ → P.inv s₁ → P.assume (.event r) seen s₁ .read →
      ∀ orderId decision, decisionOf r.value = some (orderId, decision) →
      (∀ row, (decision (sagaRow s₁ orderId)).Writes r.value.correlationId row →
        ∀ s₂, P.rely s₁ s₂ → P.inv s₂ →
          P.assume (.event r) s₁.db s₂ (.commit [⟨.sagaInstance orderId, row⟩]) →
          P.guar (.event r) s₁.db s₂ (s₂.commit (.event r) [⟨.sagaInstance orderId, row⟩]) ∧
            MayCommitOffset P r s₁.db (s₂.commit (.event r) [⟨.sagaInstance orderId, row⟩])) ∧
      (decision (sagaRow s₁ orderId) = .ignore → MayCommitOffset P r s₁.db s₁)) :
    (code (.event r)).wp S P (.event r) (fun _ _ _ => True) seen s := by
  have hcommit : ∀ {seen s}, MayCommitOffset P r seen s →
      (commitOffsets r.topic r.partition (r.offset + 1)).wp S P (.event r)
        (fun _ _ _ => True) seen s := by
    intro seen s h s' hrely hinv res _ ha
    refine ⟨h s' hrely hinv res ha, ?_⟩
    cases res <;> trivial
  show Proc.wp S P (.event r) _ (do
    SagaEventConsumer.dispatch r.value
    commitOffsets r.topic r.partition (r.offset + 1)) seen s
  refine Proc.wp_bind _ _ ?_
  rcases dispatch_cases r.value with ⟨hdec, hend | ⟨e, hend⟩⟩ | ⟨orderId, decision, hdec, hdispatch⟩
  · rw [hend]
    exact hcommit (hnone hdec)
  · rw [hend]
    trivial
  · rw [hdispatch]
    intro s₁ h₁ hinv₁ ha₁
    obtain ⟨hsave, hignore⟩ := hread s₁ h₁ hinv₁ ha₁ orderId decision hdec
    refine wp_perform orderId _ _ (hacts s₁.db orderId decision hdec) ?_
      (fun h => hcommit (hignore h)) fun _ _ _ => trivial
    intro row hrow s₂ h₂ hinv₂ ha₂
    obtain ⟨hguar, hmay⟩ := hsave row hrow s₂ h₂ hinv₂ ha₂
    refine ⟨hguar, fun s₃ h₃ => hcommit fun s₄ h₄ => hmay s₄ (P.rely_trans h₃ h₄)⟩

end Rule

/-! ## The saga only moves forward -/

/-- `new` continues `old`. -/
structure Extends (old new : SagaInstanceRow) : Prop where
  index : old.currentStepIndex ≤ new.currentStepIndex
  history : old.history <+: new.history
  final : ¬ old.Open → new.status = old.status

/-- What of a row says how far the saga is. -/
def SagaInstanceRow.progress (row : SagaInstanceRow) : ℕ × SagaStatus × List HistoryEntry :=
  (row.currentStepIndex, row.status, row.history)

theorem Extends.of_progress {old old' new : SagaInstanceRow} (h : Extends old new)
    (hold : old'.progress = old.progress) : Extends old' new := by
  simp only [SagaInstanceRow.progress, Prod.mk.injEq] at hold
  obtain ⟨hindex, hstatus, hhistory⟩ := hold
  refine ⟨hindex ▸ h.index, hhistory ▸ h.history, fun hfinal => ?_⟩
  have hfinal' : ¬ old.Open := by rwa [SagaInstanceRow.Open, ← hstatus]
  rw [h.final hfinal', hstatus]

/-- A decision on a row saves one that continues it. -/
theorem extends_of_writes {e : EventEnvelope} {orderId : Uuid}
    {decision : Option SagaInstanceRow → Decision} (hdec : decisionOf e = some (orderId, decision))
    {old row : SagaInstanceRow} (h : (decision (some old)).Writes e.correlationId row) :
    Extends old row := by
  obtain ⟨-, ⟨-, items, -, rfl⟩ | ⟨-, -, rfl⟩⟩ := decisionOf_cases hdec
  · cases h
  · simp only [decideEvent] at h
    by_cases hfinal : old.status = .completed ∨ old.status = .compensated
    · rw [if_pos hfinal] at h
      cases h
    · rw [if_neg hfinal] at h
      have hopen : ¬ old.Open → row.status = old.status := fun hclosed => absurd hfinal hclosed
      split at h
      · rename_i hindex
        split at h
        · obtain ⟨time, rfl⟩ := h
          exact ⟨by rw [hindex]; exact Nat.zero_le _, List.prefix_append _ _, hopen⟩
        · split at h
          · obtain ⟨time, rfl⟩ := h
            exact ⟨Nat.le_refl _, List.prefix_append _ _, hopen⟩
          · subst h
            exact ⟨Nat.le_refl _, List.prefix_refl _, hopen⟩
      · split at h
        · obtain ⟨time, rfl⟩ := h
          exact ⟨Nat.le_refl _, List.prefix_append _ _, hopen⟩
        · split at h
          · obtain ⟨time, rfl⟩ := h
            exact ⟨Nat.le_refl _, List.prefix_append _ _, hopen⟩
          · subst h
            exact ⟨Nat.le_refl _, List.prefix_refl _, hopen⟩
      · cases h

/-- The replicas over a table with the rows `db`: any record of an event topic
may be handled at any time, by any number of handlers. -/
def replicaSystem (db : Db) : System where
  code := code
  start := fun s => s = ⟨db, []⟩
  spawn := fun _ t => ∃ r, t = .event r
  reply := fun _ _ _ _ => True
  fault := databaseFault

/-- The value of the order's row that an event of the trace committed, if it did. -/
def savedRow (orderId : Uuid) : Event Row Act.Reply Task → Option SagaInstanceRow
  | .committed _ w => Store.row w (.sagaInstance orderId)
  | .acted _ _ _ => none

/-- The committed values of the order's row since it was in `db`, oldest first. -/
def rowHistory (db : Db) (s : Shared) (orderId : Uuid) : List SagaInstanceRow :=
  (Store.row db (.sagaInstance orderId) : Option SagaInstanceRow).toList ++
    s.trace.reverse.filterMap (savedRow orderId)

/-- Every committed value of a saga's row continues the one before it. -/
def OnlyMovesForward (db : Db) (s : Shared) : Prop :=
  ∀ orderId, (rowHistory db s orderId).IsChain Extends

/-- Every save finds the saga as far as it was when its handler read the row. -/
def SavesOverWhatItRead : Guard := fun s i c =>
  ∀ job w, s.jobs i = some job → c = .commit w → ∀ orderId row,
    Store.row w (.sagaInstance orderId) = some (row : SagaInstanceRow) →
      (sagaRow s.shared orderId).map (·.progress) =
        (Store.row job.seen (.sagaInstance orderId) : Option SagaInstanceRow).map (·.progress)

/-- A step keeps every row's past: it commits nothing, or rows that continue
the ones there. -/
def Continues (s s' : Shared) : Prop :=
  ∀ orderId, (∀ db, rowHistory db s' orderId = rowHistory db s orderId) ∧
      sagaRow s' orderId = sagaRow s orderId ∨
    ∃ row, (∀ db, rowHistory db s' orderId = rowHistory db s orderId ++ [row]) ∧
      sagaRow s' orderId = some row ∧ ∀ old, sagaRow s orderId = some old → Extends old row

section Continues

variable {s : Shared} {t : Task}

theorem rowHistory_acted (db : Db) (a : Act) (res : Act.Reply a) (orderId : Uuid) :
    rowHistory db (s.acted t a res) orderId = rowHistory db s orderId := by
  simp [rowHistory, savedRow]

theorem rowHistory_commit (db w : Db) (orderId : Uuid) :
    rowHistory db (s.commit t w) orderId = rowHistory db s orderId ++
      (Store.row w (.sagaInstance orderId) : Option SagaInstanceRow).toList := by
  unfold rowHistory
  rw [Shared.commit_trace, List.reverse_cons, List.filterMap_append, List.append_assoc]
  congr 2

theorem continues_acted (a : Act) (res : Act.Reply a) : Continues s (s.acted t a res) :=
  fun orderId => .inl ⟨fun db => rowHistory_acted db a res orderId, rfl⟩

/-- A save of a row that continues the one there. -/
theorem continues_save {orderId : Uuid} {row : SagaInstanceRow}
    (h : ∀ old, sagaRow s orderId = some old → Extends old row) :
    Continues s (s.commit t [⟨.sagaInstance orderId, row⟩]) := by
  intro o
  by_cases ho : o = orderId
  · subst ho
    refine .inr ⟨row, fun db => ?_, Store.row_cons_self _ _ _, h⟩
    rw [rowHistory_commit, Store.row_cons_self]
    rfl
  · have hne : Key.sagaInstance o ≠ .sagaInstance orderId := by simpa using ho
    refine .inl ⟨fun db => ?_, @Store.row_cons_ne _ _ _ s.db _ (.sagaInstance orderId) row hne⟩
    rw [rowHistory_commit, Store.row_cons_ne _ _ hne, Store.row_nil]
    exact List.append_nil _

/-- What a handler saves continues the row there, where that is as far as the
row the handler read. -/
theorem extends_stored {e : EventEnvelope} {orderId : Uuid}
    {decision : Option SagaInstanceRow → Decision} (hdec : decisionOf e = some (orderId, decision))
    {found : Option SagaInstanceRow} {row : SagaInstanceRow}
    (h : (decision found).Writes e.correlationId row)
    (hsame : (sagaRow s orderId).map (·.progress) = found.map (·.progress)) :
    ∀ old, sagaRow s orderId = some old → Extends old row := by
  intro old hold
  rw [hold] at hsame
  cases found with
  | none => cases hsame
  | some read => exact (extends_of_writes hdec h).of_progress (Option.some.inj hsame)

end Continues

/-- What replicas promise each other where no save is stale. -/
def forwardProtocol : Protocol Row Err Act.Reply Task where
  inv := fun _ => True
  assume := fun _ seen s c => ∀ w, c = .commit w → ∀ orderId row,
    Store.row w (.sagaInstance orderId) = some (row : SagaInstanceRow) →
      (sagaRow s orderId).map (·.progress) =
        (Store.row seen (.sagaInstance orderId) : Option SagaInstanceRow).map (·.progress)
  rely := fun _ _ => True
  guar := fun _ _ s s' => Continues s s'
  rely_refl := fun _ => trivial
  rely_trans := fun _ _ => trivial
  guar_inv := fun _ _ => trivial
  guar_rely := fun _ _ => trivial

theorem replicaSystem_keeps (db : Db) :
    (replicaSystem db).Keeps forwardProtocol SavesOverWhatItRead where
  start := fun _ _ => trivial
  assume := fun s i c job hg hj w hw => hg job w hj hw
  code := by
    rintro s t ⟨r, rfl⟩ -
    have hacts : ∀ seen publishes, AllowsActs forwardProtocol (.event r) seen publishes :=
      fun _ _ => ⟨fun _ id => continues_acted .randomUUID id,
        fun _ time => continues_acted .now time,
        fun _ c key res _ => continues_acted (.publish .sagaCommands (.command c) key) res⟩
    have hmay : ∀ seen s, MayCommitOffset forwardProtocol r seen s :=
      fun seen s s' _ _ res _ => continues_acted _ res
    refine wp_event r (fun _ _ _ _ => hacts _ _) (fun _ => hmay _ _) fun s₁ _ _ _ orderId decision hdec => ?_
    refine ⟨fun row hrow s₂ _ _ ha₂ => ⟨?_, hmay _ _⟩, fun _ => hmay _ _⟩
    exact continues_save (extends_stored hdec hrow
      (ha₂ _ rfl orderId row (Store.row_cons_self _ _ _)))

/-- **Where every save finds the saga as its handler read it, no replica ever
takes a saga back.** -/
theorem sagaOnlyMovesForward (db : Db) (s : State)
    (h : Reach (replicaSystem db) SavesOverWhatItRead s) : OnlyMovesForward db s.shared := by
  suffices hinv : ∀ orderId, (rowHistory db s.shared orderId).IsChain Extends ∧
      (rowHistory db s.shared orderId).getLast? = sagaRow s.shared orderId from
    fun orderId => (hinv orderId).1
  refine Protocol.invariant (replicaSystem_keeps db) (I := fun s => ∀ orderId,
    (rowHistory db s orderId).IsChain Extends ∧
      (rowHistory db s orderId).getLast? = sagaRow s orderId) ?_ ?_ h
  · rintro s rfl orderId
    unfold rowHistory sagaRow
    generalize (Store.row db (.sagaInstance orderId) : Option SagaInstanceRow) = first
    cases first <;> simp
  · intro t seen s s' _ hI hcont orderId
    obtain ⟨hchain, hlast⟩ := hI orderId
    rcases hcont orderId with ⟨hsame, hrow⟩ | ⟨row, hmore, hrow, hextends⟩
    · rw [hsame, hrow]
      exact ⟨hchain, hlast⟩
    · rw [hmore, hrow]
      refine ⟨hchain.append (.singleton row) fun old hold new hnew => ?_, by simp⟩
      rw [hlast] at hold
      cases hnew
      exact hextends old hold

def reservedStock : Delivery := reservedCheckout[1]

/-- OrderCreated and then InventoryReserved, each up to its save: two committed
values of the row, each save over what its handler read. -/
theorem sagaOnlyMovesForward_reserved : ∃ s : Shared,
    (rowHistory [] s order₁).map (·.currentStepIndex) = [0, 1] ∧ OnlyMovesForward [] s := by
  have hstarted := Reach.burst (i := 0) createdOrder.answer (fun _ _ => trivial) 6 _ [] _
    ((Reach.start (S := replicaSystem []) (G := SavesOverWhatItRead) (s := ⟨[], []⟩) rfl).step
      (.spawn (t := createdOrder.task) rfl ⟨_, rfl⟩) ?_) ?_
  · have hreserved := Reach.burst (i := 1) reservedStock.answer (fun _ _ => trivial) 6 _
      [] _ (hstarted.step (.spawn (t := reservedStock.task) rfl ⟨_, rfl⟩) ?_) ?_
    · refine ⟨_, ?_, sagaOnlyMovesForward [] _ hreserved⟩
      decide +kernel
    · intro job w _ hc
      cases hc
    · refine ⟨?_, ?_, ?_, ?_, ?_, ?_, trivial⟩ <;> intro job w hj hc <;> cases hc
      intro o row hrow
      rw [State.set_jobs_self] at hj
      cases hj
      rfl
  · intro job w _ hc
    cases hc
  · refine ⟨?_, ?_, ?_, ?_, ?_, ?_, trivial⟩ <;> intro job w hj hc <;> cases hc
    intro o row hrow
    rw [State.set_jobs_self] at hj
    cases hj
    rfl

/-! ## A saga taken back -/

/-- A payment authorised while the handler of InventoryReserved has published
AuthorizePayment and not yet saved its row. -/
def authorizedPayment : Delivery :=
  checkoutMessage 0 .paymentEvents .paymentAuthorized
    { orderId := some order₁, paymentId := some payment₁, pspReference := some "ref"
      amountCents := some 500 }

/-- The reservation's handler is about to save. -/
def advancing : State :=
  ((State.idle startedCheckout).set 0
    (some ⟨reservedStock.task, [], code reservedStock.task⟩)).resume reservedStock.answer 0 5

/-- The payment's handler has read the row before that save, and saves it back after. -/
def rewound : State :=
  (((advancing.set 1 (some ⟨authorizedPayment.task, [], code authorizedPayment.task⟩)).resume
    authorizedPayment.answer 1 1).resume reservedStock.answer 0 1).resume authorizedPayment.answer 1 1

theorem reach_rewound : Reach (replicaSystem []) anything rewound := by
  have hstarted : Reach (replicaSystem []) anything (.idle startedCheckout) :=
    (Reach.start rfl).run (t := createdOrder.task) ⟨_, rfl⟩ fun _ _ => trivial
  have hadvancing : Reach (replicaSystem []) anything advancing :=
    (hstarted.step (.spawn (i := 0) (t := reservedStock.task) rfl ⟨_, rfl⟩) trivial).resume _
      (fun _ _ _ => trivial) 0 5
  have hfree : advancing.jobs 1 = none := by rfl
  have hspawned := hadvancing.step (.spawn (t := authorizedPayment.task) hfree ⟨_, rfl⟩) trivial
  exact ((hspawned.resume _ (fun _ _ _ => trivial) 1 1).resume _ (fun _ _ _ => trivial) 0 1).resume _
    (fun _ _ _ => trivial) 1 1

/-- The saga goes from its payment step back to its reservation step. -/
theorem saga_rewound : ¬ ∀ db s, Reach (replicaSystem db) anything s →
    OnlyMovesForward db s.shared := by
  intro h
  have hsteps : (rowHistory [] rewound.shared order₁).map (·.currentStepIndex) = [0, 1, 0] := by
    decide +kernel
  have hchain : ((rowHistory [] rewound.shared order₁).map (·.currentStepIndex)).IsChain (· ≤ ·) :=
    List.isChain_map_of_isChain _ (fun _ _ hext => hext.index) (h [] rewound reach_rewound order₁)
  rw [hsteps] at hchain
  revert hchain
  decide

end Saganova
