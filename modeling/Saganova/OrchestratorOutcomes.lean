import Saganova.OrchestratorReplicas

/-!
# Outcomes of steps

The participants answer each step's command with one outcome event, which is
delivered, at least once, any time after the command was published.  `start`
and `advance` publish before they save, so an outcome may be handled against no
row, or against a row still at the step before: it is then dropped or written
off as unexpected, and acknowledged (`outcome_lost`).

Where every outcome that is acknowledged had read a row at its step or past it,
and no save is stale, none is lost (`outcomesKept`).
-/

namespace Saganova

open Concurrency Decision

/-! ## The claim -/

/-- What an outcome event says of the saga: which step, and how it ended. -/
structure StepOutcome where
  index : ℕ
  step : String
  event : StepEvent
  command : CommandType
  deriving DecidableEq

/-- The outcome that events of a type report, by the saga's definition. -/
def outcomeOf (type : EventType) : Option StepOutcome :=
  orderFulfillmentSaga.steps.zipIdx.findSome? fun (step, index) =>
    if type = step.successEvent then
      some { index, step := step.name, event := .succeeded, command := step.command }
    else if type = step.failureEvent then
      some { index, step := step.name, event := .failed, command := step.command }
    else none

/-- The event reports an outcome for the order `o` (the consumer takes an empty
orderId for none). -/
def IsOutcome (e : EventEnvelope) (o : Uuid) (out : StepOutcome) : Prop :=
  e.payload.orderId = some o ∧ o ≠ "" ∧ outcomeOf e.type = some out

/-- A publish of a command of `type` for `o` was attempted. -/
def CommandAttempted (s : Shared) (type : CommandType) (o : Uuid) : Prop :=
  ∃ c, Published s .sagaCommands (.command c) ∧ c.type = type ∧ c.payload.orderId = some o

/-- The record is in the log. -/
def InLog (log : Topic → ℕ → ℕ → Option EventEnvelope) (r : Record EventEnvelope) : Prop :=
  log r.topic r.partition r.offset = some r.value

/-- The orchestrator's replicas among participants that decide each step of an
order once: `verdict o i` is the event they answer step `i` with.  A record may
be delivered while its offset is not committed, an outcome only once the
command it answers is out. -/
def outcomeSystem (log : Topic → ℕ → ℕ → Option EventEnvelope) (verdict : Uuid → ℕ → EventType) :
    System where
  code := code
  start := fun s => s = ⟨[], []⟩
  spawn := fun s t => ∃ r, t = .event r ∧ InLog log r ∧ ¬ EventAcknowledged s.shared r ∧
    ∀ o out, IsOutcome r.value o out →
      CommandAttempted s.shared out.command o ∧ verdict o out.index = r.value.type
  reply := fun _ _ _ _ => True
  fault := databaseFault

/-- The outcome is in the row's history. -/
def Records (row : SagaInstanceRow) (out : StepOutcome) : Prop :=
  ∃ entry ∈ row.history, entry.step = out.step ∧ entry.event = out.event

/-- The outcome is in the order's persisted history. -/
def Kept (s : Shared) (o : Uuid) (out : StepOutcome) : Prop :=
  ∃ row, sagaRow s o = some row ∧ Records row out

/-- Every outcome whose offset is committed is in the order's history once no
handler for the order is running. -/
def OutcomesKept (log : Topic → ℕ → ℕ → Option EventEnvelope) (s : State) : Prop :=
  ∀ r o out, InLog log r → IsOutcome r.value o out → CommandAttempted s.shared out.command o →
    EventAcknowledged s.shared r →
    (∀ i job r', s.jobs i = some job → job.task = .event r' → r'.value.payload.orderId ≠ some o) →
    Kept s.shared o out

/-- An outcome's offset is committed only by a handler that had read a row at
the outcome's step or past it, and no save is stale. -/
def OutcomesInTime : Guard := fun s i c => SavesOverWhatItRead s i c ∧
  ∀ job r o out res, s.jobs i = some job → job.task = .event r →
    c = .act (.commitOffsets r.topic r.partition (r.offset + 1)) res → IsOutcome r.value o out →
    ∃ row : SagaInstanceRow, Store.row job.seen (.sagaInstance o) = some row ∧
      out.index ≤ row.currentStepIndex

/-! ## What a decision does to the outcomes -/

/-- The saga is done with step `i`. -/
def SagaInstanceRow.Past (row : SagaInstanceRow) (i : ℕ) : Prop :=
  i < row.currentStepIndex ∨ i = row.currentStepIndex ∧ ¬ row.Open

theorem Records.mono {old row : SagaInstanceRow} {out : StepOutcome} (h : Records old out)
    (hhistory : old.history <+: row.history) : Records row out := by
  obtain ⟨entry, hmem, hentry⟩ := h
  exact ⟨entry, hhistory.subset hmem, hentry⟩

theorem records_snoc {history : List HistoryEntry} {row : SagaInstanceRow} {entry : HistoryEntry}
    {out : StepOutcome} (h : row.history = history ++ [entry]) (hstep : entry.step = out.step)
    (hevent : entry.event = out.event) : Records row out := by
  refine ⟨entry, ?_, hstep, hevent⟩
  rw [h]
  simp

/-- A row whose last entry ends the step it was at. -/
theorem ends_step {old row : SagaInstanceRow} {type : EventType} {out : StepOutcome}
    {entry : HistoryEntry} (hout : outcomeOf type = some out)
    (hindex : out.index = old.currentStepIndex) (hhistory : row.history = old.history ++ [entry])
    (hstep : entry.step = out.step) (hevent : entry.event = out.event)
    (hpast : ∀ i, row.Past i → i < old.currentStepIndex ∨ i = out.index) :
    ∃ out, outcomeOf type = some out ∧ out.index = old.currentStepIndex ∧ Records row out ∧
      old.history <+: row.history ∧ ∀ i, row.Past i → i < old.currentStepIndex ∨ i = out.index :=
  ⟨out, hout, hindex, records_snoc hhistory hstep hevent, hhistory ▸ List.prefix_append _ _, hpast⟩

/-- A decision on an open row writes it back, or ends its step. -/
theorem writes_cases {type : EventType} {payload : Payload} {correlationId : String}
    {old row : SagaInstanceRow}
    (h : (decideEvent (some old) type payload).Writes correlationId row) :
    (row.progress = old.progress ∧ ∀ out, outcomeOf type = some out →
      out.index ≠ old.currentStepIndex) ∨
    ∃ out, outcomeOf type = some out ∧ out.index = old.currentStepIndex ∧ Records row out ∧
      old.history <+: row.history ∧ ∀ i, row.Past i → i < old.currentStepIndex ∨ i = out.index := by
  -- past a row at the same index: the steps before, and its own where it is final
  have hsame : ∀ {i : ℕ}, row.currentStepIndex = old.currentStepIndex → row.Past i →
      i < old.currentStepIndex ∨ i = old.currentStepIndex := by
    intro i heq hpast
    rcases hpast with hlt | ⟨rfl, -⟩
    · exact .inl (heq ▸ hlt)
    · exact .inr heq
  simp only [decideEvent] at h
  by_cases hfinal : old.status = .completed ∨ old.status = .compensated
  · rw [if_pos hfinal] at h
    cases h
  · rw [if_neg hfinal] at h
    split at h
    · rename_i hindex
      by_cases htype : type = .inventoryReserved
      · rw [if_pos htype] at h
        obtain ⟨time, rfl⟩ := h
        subst htype
        refine .inr (ends_step rfl hindex.symm rfl rfl rfl fun i hpast => .inr ?_)
        rcases hpast with hlt | ⟨-, hclosed⟩
        · exact Nat.lt_one_iff.mp hlt
        · exact absurd (by simp [SagaInstanceRow.Open, advancedRow]) hclosed
      · rw [if_neg htype] at h
        by_cases hfail : type = .inventoryReservationFailed
        · rw [if_pos hfail] at h
          obtain ⟨time, rfl⟩ := h
          subst hfail
          exact .inr (ends_step rfl hindex.symm rfl rfl rfl fun i hpast =>
            (hsame rfl hpast).imp id fun hi => hi.trans hindex)
        · rw [if_neg hfail] at h
          subst h
          refine .inl ⟨rfl, fun out hout => ?_⟩
          rw [hindex]
          cases type <;> first | contradiction | (cases hout; decide)
    · rename_i hindex
      by_cases htype : type = .paymentAuthorized
      · rw [if_pos htype] at h
        obtain ⟨time, rfl⟩ := h
        subst htype
        exact .inr (ends_step rfl hindex.symm rfl rfl rfl fun i hpast =>
          (hsame rfl hpast).imp id fun hi => hi.trans hindex)
      · rw [if_neg htype] at h
        by_cases hfail : type = .paymentDeclined
        · rw [if_pos hfail] at h
          obtain ⟨time, rfl⟩ := h
          subst hfail
          exact .inr (ends_step rfl hindex.symm rfl rfl rfl fun i hpast =>
            (hsame rfl hpast).imp id fun hi => hi.trans hindex)
        · rw [if_neg hfail] at h
          subst h
          refine .inl ⟨rfl, fun out hout => ?_⟩
          rw [hindex]
          cases type <;> first | contradiction | (cases hout; decide)
    · cases h

/-! ## The invariant -/

/-- What the saga is done with, it has recorded as the participants decided it. -/
def RowOk (verdict : Uuid → ℕ → EventType) (o : Uuid) (row : SagaInstanceRow) : Prop :=
  ∀ i, row.Past i → ∃ out, outcomeOf (verdict o i) = some out ∧ out.index = i ∧ Records row out

section RowOk

variable {verdict : Uuid → ℕ → EventType} {o : Uuid} {e : EventEnvelope}
  {decision : Option SagaInstanceRow → Decision} {old row : SagaInstanceRow} {out : StepOutcome}

theorem rowOk_started (context : OrderFulfillmentContext) (time : Time) (correlationId : String) :
    RowOk verdict o (startedRow context time correlationId) := by
  intro i hpast
  rcases hpast with hlt | ⟨-, hclosed⟩
  · exact absurd hlt (Nat.not_lt_zero i)
  · exact absurd (by simp [SagaInstanceRow.Open, startedRow]) hclosed

theorem RowOk.of_progress (h : RowOk verdict o old) (hsame : row.progress = old.progress) :
    RowOk verdict o row := by
  simp only [SagaInstanceRow.progress, Prod.mk.injEq] at hsame
  obtain ⟨hindex, hstatus, hhistory⟩ := hsame
  intro i hpast
  obtain ⟨out, hout, hi, entry, hmem, hentry⟩ := h i (by
    unfold SagaInstanceRow.Past SagaInstanceRow.Open at hpast ⊢
    rwa [← hindex, ← hstatus])
  exact ⟨out, hout, hi, entry, hhistory ▸ hmem, hentry⟩

/-- An outcome at a step that the saga is done with is the one recorded. -/
theorem RowOk.records (h : RowOk verdict o old) (hout : outcomeOf e.type = some out)
    (hverdict : verdict o out.index = e.type) (hpast : old.Past out.index) : Records old out := by
  obtain ⟨out', hout', -, hrecords⟩ := h out.index hpast
  rw [hverdict, hout] at hout'
  cases hout'
  exact hrecords

/-- A save keeps the rows right. -/
theorem RowOk.writes (hdec : decisionOf e = some (o, decision))
    (hverdict : ∀ o' out, IsOutcome e o' out → verdict o' out.index = e.type)
    {found : Option SagaInstanceRow} (hok : ∀ old, found = some old → RowOk verdict o old)
    (h : (decision found).Writes e.correlationId row) : RowOk verdict o row := by
  obtain ⟨hid, ⟨-, items, -, rfl⟩ | ⟨-, hne, rfl⟩⟩ := decisionOf_cases hdec
  · cases found with
    | some old => cases h
    | none =>
      obtain ⟨time, rfl⟩ := h
      exact rowOk_started _ time e.correlationId
  · cases found with
    | none => cases h
    | some old =>
      have hold : RowOk verdict o old := hok old rfl
      rcases writes_cases h with ⟨hsame, -⟩ | ⟨out, hout, -, hrecords, hhistory, hpast⟩
      · exact hold.of_progress hsame
      · have hv : verdict o out.index = e.type := hverdict o out ⟨hid, hne, hout⟩
        intro i hi
        rcases hpast i hi with hlt | rfl
        · obtain ⟨out', hout', hi', hrecords'⟩ := hold i (.inl hlt)
          exact ⟨out', hout', hi', hrecords'.mono hhistory⟩
        · exact ⟨out, by rw [hv, hout], rfl, hrecords⟩

/-- An outcome read at its step or past it is recorded in what is there, or in
what is saved. -/
theorem records_inTime (hdec : decisionOf e = some (o, decision)) (hout : IsOutcome e o out)
    (hverdict : verdict o out.index = e.type) (hok : RowOk verdict o old)
    (hle : out.index ≤ old.currentStepIndex) :
    (decision (some old) = .ignore → Records old out) ∧
      ∀ row, (decision (some old)).Writes e.correlationId row → Records row out := by
  obtain ⟨hid, hne, htype⟩ := hout
  have hcreated : e.type ≠ .orderCreated := by
    intro h
    rw [h] at htype
    cases htype
  have hdec' := decisionOf_event hcreated hid hne
  rw [hdec] at hdec'
  cases hdec'
  by_cases hpast : old.Past out.index
  · have hrecords : Records old out := hok.records htype hverdict hpast
    exact ⟨fun _ => hrecords, fun row h => hrecords.mono (extends_of_writes hdec h).history⟩
  · have hindex : out.index = old.currentStepIndex := by
      by_contra hne'
      exact hpast (.inl (by omega))
    have hopen : old.Open := by
      by_contra hclosed
      exact hpast (.inr ⟨hindex, hclosed⟩)
    refine ⟨fun h => ?_, fun row h => ?_⟩
    · exfalso
      unfold decideEvent at h
      simp only [if_neg hopen] at h
      split at h
      · split at h
        · cases h
        · split at h <;> cases h
      · split at h
        · cases h
        · split at h <;> cases h
      · cases h
    · rcases writes_cases h with ⟨-, hother⟩ | ⟨out', hout', -, hrecords, -⟩
      · exact absurd hindex (hother out htype)
      · rw [htype] at hout'
        cases hout'
        exact hrecords

end RowOk

/-- What the replicas promise each other in such runs. -/
structure OutcomeInv (log : Topic → ℕ → ℕ → Option EventEnvelope) (verdict : Uuid → ℕ → EventType)
    (s : Shared) : Prop where
  rows : ∀ o row, sagaRow s o = some row → RowOk verdict o row
  kept : ∀ r o out, InLog log r → IsOutcome r.value o out → EventAcknowledged s r → Kept s o out

/-- Histories only grow. -/
def HistoriesGrow (s s' : Shared) : Prop :=
  ∀ o row, sagaRow s o = some row → ∃ row', sagaRow s' o = some row' ∧ row.history <+: row'.history

theorem HistoriesGrow.trans {s₁ s₂ s₃ : Shared} (h : HistoriesGrow s₁ s₂)
    (h' : HistoriesGrow s₂ s₃) : HistoriesGrow s₁ s₃ := by
  intro o row hrow
  obtain ⟨row', hrow', hprefix⟩ := h o row hrow
  obtain ⟨row'', hrow'', hprefix'⟩ := h' o row' hrow'
  exact ⟨row'', hrow'', hprefix.trans hprefix'⟩

theorem Kept.grow {s s' : Shared} {o : Uuid} {out : StepOutcome} (h : Kept s o out)
    (hgrow : HistoriesGrow s s') : Kept s' o out := by
  obtain ⟨row, hrow, hrecords⟩ := h
  obtain ⟨row', hrow', hprefix⟩ := hgrow o row hrow
  exact ⟨row', hrow', hrecords.mono hprefix⟩

/-- A step of a handler: an action that acknowledges only outcomes that are
kept, or a save that continues the row there. -/
inductive OutcomeStep (log : Topic → ℕ → ℕ → Option EventEnvelope)
    (verdict : Uuid → ℕ → EventType) (t : Task) (s : Shared) : Shared → Prop
  | acted (a : Act) (res : Act.Reply a) :
      (∀ r o out, a = .commitOffsets r.topic r.partition (r.offset + 1) → InLog log r →
        IsOutcome r.value o out → Kept s o out) →
      OutcomeStep log verdict t s (s.acted t a res)
  | saved (orderId : Uuid) (row : SagaInstanceRow) : RowOk verdict orderId row →
      (∀ old, sagaRow s orderId = some old → Extends old row) →
      OutcomeStep log verdict t s (s.commit t [⟨.sagaInstance orderId, row⟩])

section Step

variable {log : Topic → ℕ → ℕ → Option EventEnvelope} {verdict : Uuid → ℕ → EventType} {t : Task}
  {s s' : Shared}

theorem OutcomeStep.grow (h : OutcomeStep log verdict t s s') : HistoriesGrow s s' := by
  intro o row hrow
  cases h with
  | acted a res _ => exact ⟨row, hrow, List.prefix_refl _⟩
  | saved orderId row' _ hextends =>
    by_cases ho : o = orderId
    · subst ho
      exact ⟨row', Store.row_cons_self s.db (.sagaInstance o) row', (hextends row hrow).history⟩
    · refine ⟨row, ?_, List.prefix_refl _⟩
      have hne : Key.sagaInstance o ≠ .sagaInstance orderId := by simpa using ho
      exact (@Store.row_cons_ne _ _ _ s.db _ (.sagaInstance orderId) row' hne).trans hrow

theorem OutcomeStep.inv (h : OutcomeStep log verdict t s s') (inv : OutcomeInv log verdict s) :
    OutcomeInv log verdict s' where
  rows := by
    intro o row hrow
    cases h with
    | acted a res _ => exact inv.rows o row hrow
    | saved orderId row' hok _ =>
      by_cases ho : o = orderId
      · subst ho
        have hself := Store.row_cons_self s.db (.sagaInstance o) row'
        cases hself.symm.trans hrow
        exact hok
      · have hne : Key.sagaInstance o ≠ .sagaInstance orderId := by simpa using ho
        exact inv.rows o row
          ((@Store.row_cons_ne _ _ _ s.db _ (.sagaInstance orderId) row' hne).symm.trans hrow)
  kept := by
    intro r o out hlog hout hack
    have hgrow := h.grow
    cases h with
    | acted a res hkeeps =>
      rcases eventAcknowledged_acted hack with hack | ⟨-, ha⟩
      · exact (inv.kept r o out hlog hout hack).grow hgrow
      · exact (hkeeps r o out ha hlog hout).grow hgrow
    | saved orderId row' _ _ =>
      exact (inv.kept r o out hlog hout ((eventAcknowledged_commit _).mp hack)).grow hgrow

end Step

section Protocol

variable (log : Topic → ℕ → ℕ → Option EventEnvelope) (verdict : Uuid → ℕ → EventType)

def outcomeProtocol : Protocol Row Err Act.Reply Task where
  inv := OutcomeInv log verdict
  assume := fun t seen s c =>
    (∀ w, c = .commit w → ∀ orderId row,
      Store.row w (.sagaInstance orderId) = some (row : SagaInstanceRow) →
        (sagaRow s orderId).map (·.progress) =
          (Store.row seen (.sagaInstance orderId) : Option SagaInstanceRow).map (·.progress)) ∧
    ∀ r o out res, t = .event r →
      c = .act (.commitOffsets r.topic r.partition (r.offset + 1)) res → IsOutcome r.value o out →
      ∃ row : SagaInstanceRow, Store.row seen (.sagaInstance o) = some row ∧
        out.index ≤ row.currentStepIndex
  rely := HistoriesGrow
  guar := fun t _ s s' => OutcomeStep log verdict t s s'
  rely_refl := fun _ _ row hrow => ⟨row, hrow, List.prefix_refl _⟩
  rely_trans := fun h h' => h.trans h'
  guar_inv := fun inv h => h.inv inv
  guar_rely := fun _ h => h.grow

variable {log verdict}

theorem outcomeProtocol_allowsActs (t : Task) (seen : Db) (publishes : CommandEnvelope → Prop) :
    AllowsActs (outcomeProtocol log verdict) t seen publishes where
  randomUUID := fun _ id => .acted .randomUUID id (by simp)
  now := fun _ time => .acted .now time (by simp)
  publish := fun _ c key res _ => .acted (.publish .sagaCommands (.command c) key) res (by simp)

/-- A handler may acknowledge its record where every outcome that it read in
time is kept. -/
theorem mayCommitOffset_of_kept {r : Record EventEnvelope} {seen : Db} {s : Shared}
    (hlog : InLog log r)
    (h : ∀ o out, IsOutcome r.value o out → ∀ row : SagaInstanceRow,
      Store.row seen (.sagaInstance o) = some row → out.index ≤ row.currentStepIndex →
      Kept s o out) : MayCommitOffset (outcomeProtocol log verdict) r seen s := by
  intro s' hgrow _ res hassume
  refine .acted _ res fun r' o out ha hlog' hout => ?_
  -- the record at that offset of the log is `r`
  have hsame : r'.value = r.value := by
    obtain ⟨htopic, hpartition, hoffset⟩ := Act.commitOffsets.inj ha
    have hoffset' : r'.offset = r.offset := by omega
    unfold InLog at hlog hlog'
    rw [← htopic, ← hpartition, hoffset', hlog] at hlog'
    exact (Option.some.inj hlog').symm
  rw [hsame] at hout
  obtain ⟨row, hrow, hle⟩ := hassume.2 r o out res rfl rfl hout
  exact (h o out hout row hrow hle).grow hgrow

theorem outcomeSystem_keeps :
    (outcomeSystem log verdict).Keeps (outcomeProtocol log verdict) OutcomesInTime where
  start := by
    rintro s rfl
    refine ⟨fun _ _ hrow => ?_, fun _ _ _ _ _ hack => ?_⟩
    · cases hrow
    · obtain ⟨r', h⟩ := hack
      cases h
  assume := by
    intro s i c job hg hj
    exact ⟨fun w hw => hg.1 job w hj hw, fun r o out res ht hc => hg.2 job r o out res hj ht hc⟩
  code := by
    rintro s t ⟨r, rfl, hlog, -, hdeliver⟩ -
    have hverdict : ∀ o out, IsOutcome r.value o out → verdict o out.index = r.value.type :=
      fun o out hout => (hdeliver o out hout).2
    refine wp_event r (fun _ _ _ _ => outcomeProtocol_allowsActs _ _ _) (fun hnone => ?_)
      fun s₁ _ hinv₁ _ orderId decision hdec => ⟨fun row hrow s₂ _ _ ha₂ => ?_, fun hignore => ?_⟩
    · refine mayCommitOffset_of_kept hlog fun _ _ _ _ hrow _ => ?_
      exact absurd hrow (by simp)
    · have hok : RowOk verdict orderId row :=
        .writes hdec hverdict (fun old hold => hinv₁.rows orderId old hold) hrow
      have hextends : ∀ old, sagaRow s₂ orderId = some old → Extends old row :=
        extends_stored hdec hrow (ha₂.1 _ rfl orderId row (Store.row_cons_self _ _ _))
      refine ⟨.saved orderId row hok hextends, mayCommitOffset_of_kept hlog ?_⟩
      intro o out hout old hold hle
      cases (decisionOf_cases hdec).1.symm.trans hout.1
      refine ⟨row, Store.row_cons_self s₂.db (.sagaInstance orderId) row, ?_⟩
      have hfound : sagaRow s₁ orderId = some old := hold
      rw [hfound] at hrow
      exact (records_inTime hdec hout (hverdict _ _ hout) (hinv₁.rows _ _ hfound) hle).2 row hrow
    · refine mayCommitOffset_of_kept hlog ?_
      intro o out hout old hold hle
      cases (decisionOf_cases hdec).1.symm.trans hout.1
      have hfound : sagaRow s₁ orderId = some old := hold
      rw [hfound] at hignore
      exact ⟨old, hfound,
        (records_inTime hdec hout (hverdict _ _ hout) (hinv₁.rows _ _ hfound) hle).1 hignore⟩

/-- **Where outcomes are acknowledged in time and no save is stale, no outcome
is lost.** -/
theorem outcomesKept (log : Topic → ℕ → ℕ → Option EventEnvelope) (verdict : Uuid → ℕ → EventType)
    (s : State) (h : Reach (outcomeSystem log verdict) OutcomesInTime s) : OutcomesKept log s := by
  intro r o out hlog hout _ hack _
  exact (Protocol.sound outcomeSystem_keeps h).inv.kept r o out hlog hout hack

end Protocol

/-! ## A run in time, and a lost outcome -/

abbrev reservedLog : Topic → ℕ → ℕ → Option EventEnvelope := logOf [createdOrder, reservedStock]

/-- What InventoryReserved reports. -/
def reservedOutcome : StepOutcome :=
  { index := 0, step := "RESERVE_INVENTORY", event := .succeeded, command := .reserveStock }

/-- The stock is there. -/
def alwaysReserved : Uuid → ℕ → EventType := fun _ _ => .inventoryReserved

theorem isOutcome_createdOrder {o : Uuid} {out : StepOutcome} :
    ¬ IsOutcome createdOrder.envelope o out := by
  rintro ⟨-, -, h⟩
  cases h

theorem isOutcome_reservedStock {o : Uuid} {out : StepOutcome}
    (h : IsOutcome reservedStock.envelope o out) :
    o = order₁ ∧ out = reservedOutcome := by
  obtain ⟨hid, -, hout⟩ := h
  exact ⟨(Option.some.inj hid).symm, (Option.some.inj hout).symm⟩

/-- Both records handled one after the other: the outcome is acknowledged and kept. -/
theorem outcomesKept_reserved : ∃ s : State, EventAcknowledged s.shared reservedStock.record ∧
    OutcomesKept reservedLog s := by
  have hstarted := Reach.burst (i := 0) createdOrder.answer (fun _ _ => trivial) 7 _ [] _
    ((Reach.start (S := outcomeSystem reservedLog alwaysReserved) (G := OutcomesInTime)
      (s := ⟨[], []⟩) rfl).step (.spawn (t := createdOrder.task) rfl ?_) ?_) ?_
  · have hreserved := Reach.burst (i := 1) reservedStock.answer (fun _ _ => trivial) 7 _
      [] _ (hstarted.step (.spawn (t := reservedStock.task) rfl ?_) ?_) ?_
    · refine ⟨_, ?_, outcomesKept reservedLog alwaysReserved _ hreserved⟩
      decide +kernel
    · refine ⟨reservedStock.record, rfl, rfl, by decide +kernel, fun o out hout => ?_⟩
      obtain ⟨rfl, rfl⟩ := isOutcome_reservedStock hout
      refine ⟨⟨_, ⟨_, _, _, List.mem_of_getElem? (i := 3) (by rfl)⟩, rfl, rfl⟩, rfl⟩
    · exact ⟨fun job w _ hc => (nomatch hc), fun job r o out res _ _ hc => (nomatch hc)⟩
    · refine ⟨?_, ?_, ?_, ?_, ?_, ?_, ?_, trivial⟩ <;>
        refine ⟨fun job w hj hc => ?_, fun job r o out res hj ht hc hout => ?_⟩ <;>
        rw [State.set_jobs_self] at hj <;> cases hj
      all_goals try cases ht
      all_goals cases hc
      · intro o row hrow
        rfl
      · obtain ⟨rfl, rfl⟩ := isOutcome_reservedStock hout
        exact ⟨_, rfl, Nat.zero_le _⟩
  · exact ⟨createdOrder.record, rfl, rfl, by decide +kernel,
      fun o out hout => absurd hout isOutcome_createdOrder⟩
  · exact ⟨fun job w _ hc => (nomatch hc), fun job r o out res _ _ hc => (nomatch hc)⟩
  · refine ⟨?_, ?_, ?_, ?_, ?_, ?_, ?_, trivial⟩ <;>
      refine ⟨fun job w hj hc => ?_, fun job r o out res hj ht hc hout => ?_⟩ <;>
      rw [State.set_jobs_self] at hj <;> cases hj
    all_goals try cases ht
    all_goals cases hc
    · intro o row hrow
      rfl
    · exact absurd hout isOutcome_createdOrder

/-- `start` has published ReserveStock and not yet saved the row. -/
def starting : State :=
  ((State.idle ⟨[], []⟩).set 0 (some ⟨createdOrder.task, [], code createdOrder.task⟩)).resume
    createdOrder.answer 0 4

/-- The reply is handled meanwhile; then `start` saves, and both handlers end. -/
def missed : State :=
  ((((starting.set 1 (some ⟨reservedStock.task, [], code reservedStock.task⟩)).resume
    reservedStock.answer 1 2).resume createdOrder.answer 0 3).set 0 none).set 1 none

theorem reach_missed : Reach (outcomeSystem reservedLog alwaysReserved) anything missed := by
  have hspawned : Reach (outcomeSystem reservedLog alwaysReserved) anything
      ((State.idle ⟨[], []⟩).set 0 (some ⟨createdOrder.task, [], code createdOrder.task⟩)) :=
    (Reach.start rfl).step (.spawn (t := createdOrder.task) rfl ⟨createdOrder.record, rfl, rfl,
      by decide +kernel, fun o out hout => absurd hout isOutcome_createdOrder⟩) trivial
  have hstarting : Reach (outcomeSystem reservedLog alwaysReserved) anything starting :=
    hspawned.resume _ (fun _ _ _ => trivial) 0 4
  have hreply := hstarting.step (.spawn (i := 1) (t := reservedStock.task) rfl ⟨reservedStock.record,
    rfl, rfl, by decide +kernel, fun o out hout => by
      obtain ⟨rfl, rfl⟩ := isOutcome_reservedStock hout
      exact ⟨⟨_, ⟨_, _, _, List.mem_of_getElem? (i := 0) (by rfl)⟩, rfl, rfl⟩, rfl⟩⟩) trivial
  have hend := (hreply.resume reservedStock.answer (fun _ _ _ => trivial) 1 2).resume
    createdOrder.answer (fun _ _ _ => trivial) 0 3
  exact (hend.step (.stop (by rfl)) trivial).step (.stop (by rfl)) trivial

theorem missed_jobs (i : ℕ) : missed.jobs i = none := by
  match i with
  | 0 => rfl
  | 1 => rfl
  | _ + 2 => rfl

/-- InventoryReserved is dropped as "no saga instance" and acknowledged. -/
theorem outcome_lost : ¬ ∀ log verdict s, Reach (outcomeSystem log verdict) anything s →
    OutcomesKept log s := by
  intro h
  have hout : IsOutcome reservedStock.envelope order₁ reservedOutcome := ⟨rfl, by decide, rfl⟩
  obtain ⟨row, hrow, entry, hmem, hstep, hevent⟩ := h _ _ missed reach_missed reservedStock.record
    order₁ _ rfl hout ⟨_, ⟨_, _, _, List.mem_of_getElem? (i := 4) (by rfl)⟩, rfl, rfl⟩
    (by decide +kernel) (fun i job r' hj => by
      rw [missed_jobs i] at hj
      cases hj)
  have hhistory : (sagaRow missed.shared order₁).map (·.history.map (·.event)) =
      some [.started] := by decide +kernel
  rw [hrow] at hhistory
  have hevents : row.history.map (·.event) = [.started] := Option.some.inj hhistory
  have hmem' : entry.event ∈ row.history.map (·.event) := List.mem_map_of_mem hmem
  rw [hevents, hevent] at hmem'
  revert hmem'
  decide

end Saganova
