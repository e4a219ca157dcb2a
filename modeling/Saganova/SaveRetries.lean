import Saganova.SaveAndLoad

/-!
# Can a failed save be retried?

The three `save` functions once more, with the caller's instance as a state
that a throw does not roll back, and with a fault at any statement or at the
commit (`Service.saveInstance`).  Without faults they are the handlers of
`EventStore` (`saveInstance_run`).

Orders and payments mark the events as committed after the commit, reservations
before it.  So a reservation whose commit fails has lost its events; every
other failure can be retried (`saveRetries`).
-/

namespace Saganova

open Concurrency

/-! ## The instance and the database -/

/-- The caller's instance, and the committed rows. -/
structure SaveState (svc : Service) where
  aggregate : svc.Aggregate
  db : Db

/-- Repository code: what it did to the instance stays when it throws. -/
abbrev Repository (svc : Service) := ExceptT Err (StateM (SaveState svc))

def Repository.result {svc : Service} {α : Type} (p : Repository svc α) (s : SaveState svc) :
    Except Err α × SaveState svc :=
  (p.run.run s).run

namespace Repository

variable {svc : Service} {α β : Type} (s : SaveState svc)

@[simp] theorem result_pure (a : α) : (pure a : Repository svc α).result s = (.ok a, s) := rfl

@[simp] theorem result_throw (e : Err) :
    (throw e : Repository svc α).result s = (.error e, s) := rfl

@[simp] theorem result_get : (get : Repository svc (SaveState svc)).result s = (.ok s, s) := rfl

@[simp] theorem result_modify (f : SaveState svc → SaveState svc) :
    (modify f : Repository svc PUnit).result s = (.ok (), f s) := rfl

@[simp] theorem result_bind (p : Repository svc α) (f : α → Repository svc β) :
    (p >>= f).result s = match p.result s with
      | (.ok a, s') => (f a).result s'
      | (.error e, s') => (.error e, s') := by
  unfold result
  rw [ExceptT.run_bind, StateT.run_bind, Id.run_bind]
  generalize (p.run.run s).run = q
  obtain ⟨r, s'⟩ := q
  cases r <;> rfl

@[simp] theorem result_tryCatch (p : Repository svc α) (f : Err → Repository svc α) :
    (tryCatch p f).result s = match p.result s with
      | (.ok a, s') => (.ok a, s')
      | (.error e, s') => (f e).result s' := by
  unfold result
  rw [ExceptT.run_tryCatch, StateT.run_bind, Id.run_bind]
  generalize (p.run.run s).run = q
  obtain ⟨r, s'⟩ := q
  cases r <;> rfl

end Repository

/-- The statements of the transaction that fail, by number, and its commit. -/
structure Faults where
  statement : ℕ → Option Err := fun _ => none
  commit : Option Err := none

section

variable {svc : Service} (faults : Faults)

/-- The statements of a transaction; their writes are seen when it commits. -/
def statements (body : DbTx Unit) : Repository svc Db := do
  match body.execFaulty faults.statement (← get).db 0 [] with
  | .ok ((), writes) => pure writes
  | .error err => throw err

/-- `COMMIT`, which rolls back where it fails. -/
def commitWrites (writes : Db) : Repository svc Unit :=
  match faults.commit with
  | none => modify fun s => { s with db := writes ++ s.db }
  | some err => throw err

def markEventsAsCommitted : Repository svc Unit :=
  modify fun s => { s with aggregate := s.aggregate.markEventsAsCommitted }

/-- `save` of the order and payment repositories. -/
def saveInstance (correlationId : String) (ids : ℕ → Uuid) : Repository svc Unit := do
  let aggregate := (← get).aggregate
  if aggregate.uncommittedEvents.isEmpty then return
  try
    let writes ← statements faults (persist svc aggregate correlationId ids)
    commitWrites faults writes
  catch err =>
    throw (toConcurrencyError svc aggregate err)
  markEventsAsCommitted

/-- It marks the events as committed, and its caller commits. -/
def InventoryEventStoreRepository.saveInstanceWithinTransaction (correlationId : String)
    (ids : ℕ → Uuid) : Repository .inventory Db := do
  let aggregate := (← get).aggregate
  if aggregate.uncommittedEvents.isEmpty then return []
  let writes ←
    try statements faults (persist .inventory aggregate correlationId ids)
    catch err => throw (toConcurrencyError .inventory aggregate err)
  markEventsAsCommitted
  return writes

def InventoryEventStoreRepository.saveInstance (correlationId : String) (ids : ℕ → Uuid) :
    Repository .inventory Unit := do
  commitWrites faults (← saveInstanceWithinTransaction faults correlationId ids)

end

def Service.saveInstance : (svc : Service) → Faults → String → (ℕ → Uuid) → Repository svc Unit
  | .order => Saganova.saveInstance
  | .payment => Saganova.saveInstance
  | .inventory => InventoryEventStoreRepository.saveInstance

/-! ## What a save leaves -/

section Result

variable {svc : Service} {faults : Faults} {correlationId : String} {ids : ℕ → Uuid}
  {a : svc.Aggregate} {db : Db}

theorem statements_result (faults : Faults) (body : DbTx Unit) (s : SaveState svc) :
    (statements faults body).result s =
      ((body.execFaulty faults.statement s.db 0 []).map Prod.snd, s) := by
  simp only [statements, Repository.result_bind, Repository.result_get]
  cases body.execFaulty faults.statement s.db 0 [] <;> rfl

/-- The body of the transaction, with its faults: the rows it writes. -/
def persistFaulty (svc : Service) (faults : Faults) (a : svc.Aggregate) (correlationId : String)
    (ids : ℕ → Uuid) (db : Db) : Except Err Db :=
  ((persist svc a correlationId ids).execFaulty faults.statement db 0 []).map Prod.snd

theorem saveInstance_result : (saveInstance faults correlationId ids).result ⟨a, db⟩ =
    if a.uncommittedEvents = [] then (.ok (), ⟨a, db⟩)
    else match persistFaulty svc faults a correlationId ids db, faults.commit with
      | .ok writes, none => (.ok (), ⟨a.markEventsAsCommitted, writes ++ db⟩)
      | .ok _, some err => (.error (toConcurrencyError svc a err), ⟨a, db⟩)
      | .error err, _ => (.error (toConcurrencyError svc a err), ⟨a, db⟩) := by
  by_cases hempty : a.uncommittedEvents = []
  · simp [saveInstance, hempty]
  · have hbody := statements_result faults (persist svc a correlationId ids) ⟨a, db⟩
    change _ = (persistFaulty svc faults a correlationId ids db, _) at hbody
    cases hpersist : persistFaulty svc faults a correlationId ids db with
    | error err => simp [saveInstance, hempty, hbody, hpersist]
    | ok writes =>
      cases hcommit : faults.commit <;>
        simp [saveInstance, commitWrites, markEventsAsCommitted, hempty, hbody, hpersist, hcommit]

theorem InventoryEventStoreRepository.saveInstance_result {a : Service.inventory.Aggregate} :
    (saveInstance faults correlationId ids).result ⟨a, db⟩ =
      if a.uncommittedEvents = [] then
        match faults.commit with
        | none => (.ok (), ⟨a, db⟩)
        | some err => (.error err, ⟨a, db⟩)
      else match persistFaulty .inventory faults a correlationId ids db, faults.commit with
        | .ok writes, none => (.ok (), ⟨a.markEventsAsCommitted, writes ++ db⟩)
        | .ok _, some err => (.error err, ⟨a.markEventsAsCommitted, db⟩)
        | .error err, _ => (.error (toConcurrencyError .inventory a err), ⟨a, db⟩) := by
  by_cases hempty : a.uncommittedEvents = []
  · cases hcommit : faults.commit <;>
      simp [saveInstance, saveInstanceWithinTransaction, commitWrites, hempty, hcommit]
  · have hbody :=
      statements_result faults (persist .inventory a correlationId ids) ⟨a, db⟩
    change _ = (persistFaulty .inventory faults a correlationId ids db, _) at hbody
    cases hpersist : persistFaulty .inventory faults a correlationId ids db with
    | error err => simp [saveInstance, saveInstanceWithinTransaction, hempty, hbody, hpersist]
    | ok writes =>
      cases hcommit : faults.commit <;>
        simp [saveInstance, saveInstanceWithinTransaction, commitWrites, markEventsAsCommitted,
          hempty, hbody, hpersist, hcommit]

/-- Without faults all three do the same. -/
theorem Service.saveInstance_faultless : (svc.saveInstance {} correlationId ids).result ⟨a, db⟩ =
    if a.uncommittedEvents = [] then (.ok (), ⟨a, db⟩)
    else match (persist svc a correlationId ids).exec db [] with
      | .ok (_, writes) => (.ok (), ⟨a.markEventsAsCommitted, writes ++ db⟩)
      | .error err => (.error (toConcurrencyError svc a err), ⟨a, db⟩) := by
  have hpersist : persistFaulty svc {} a correlationId ids db =
      ((persist svc a correlationId ids).exec db []).map Prod.snd := by
    unfold persistFaulty
    rw [Tx.execFaulty_none]
  cases svc with
  | inventory =>
    refine InventoryEventStoreRepository.saveInstance_result.trans ?_
    rw [hpersist]
    cases (persist .inventory a correlationId ids).exec db [] <;> rfl
  | order =>
    refine saveInstance_result.trans ?_
    rw [hpersist]
    cases (persist .order a correlationId ids).exec db [] <;> rfl
  | payment =>
    refine saveInstance_result.trans ?_
    rw [hpersist]
    cases (persist .payment a correlationId ids).exec db [] <;> rfl

/-- The result and the rows that a handler of `save` leaves, for the ids it draws. -/
def SavedAs (a : svc.Aggregate) (correlationId : String) (ids : ℕ → Uuid) (db : Db)
    (r : Except Err svc.Aggregate) (db' : Db) : Prop :=
  ∃ r' s', (svc.saveInstance {} correlationId ids).result ⟨a, db⟩ = (r', s') ∧
    r = r'.map (fun _ => s'.aggregate) ∧ db' = s'.db

theorem savedAs_empty (hempty : a.uncommittedEvents.isEmpty) :
    SavedAs a correlationId ids db (.ok a) db := by
  refine ⟨.ok (), ⟨a, db⟩, ?_, rfl, rfl⟩
  rw [Service.saveInstance_faultless, if_pos (List.isEmpty_iff.mp hempty)]

theorem savedAs_ok (hempty : ¬ a.uncommittedEvents.isEmpty) {writes : Db}
    (hexec : (persist svc a correlationId ids).exec db [] = .ok ((), writes)) :
    SavedAs a correlationId ids db (.ok a.markEventsAsCommitted) (writes ++ db) := by
  refine ⟨.ok (), ⟨a.markEventsAsCommitted, writes ++ db⟩, ?_, rfl, rfl⟩
  rw [Service.saveInstance_faultless, if_neg (by simpa using hempty), hexec]

theorem savedAs_error (hempty : ¬ a.uncommittedEvents.isEmpty) {err : Err}
    (hexec : (persist svc a correlationId ids).exec db [] = .error err) :
    SavedAs a correlationId ids db (.error (toConcurrencyError svc a err)) db := by
  refine ⟨.error (toConcurrencyError svc a err), ⟨a, db⟩, ?_, rfl, rfl⟩
  rw [Service.saveInstance_faultless, if_neg (by simpa using hempty), hexec]

/-- Without faults it is the handler. -/
theorem saveInstance_run {μ : Type} (answer : ℕ → (act : Act) → act.Reply) (t : μ)
    (s : Concurrency.Shared Row Act.Reply μ) : (svc.save a correlationId).After answer t
      (fun r s' => SavedAs a correlationId (answer s.trace.length .randomUUIDs) s.db r s'.db) s := by
  refine (Service.save_outcome answer a correlationId t s).mono fun r s' houtcome => ?_
  generalize s'.db = db' at houtcome ⊢
  cases houtcome with
  | nothingQueued hempty => exact savedAs_empty hempty
  | saved hqueued hexec => exact savedAs_ok hqueued hexec
  | failed hqueued hexec => exact savedAs_error hqueued hexec

/-- A save that throws has changed no row, and no instance but that of a
reservation whose commit failed. -/
theorem Service.saveInstance_error {err : Err} {s' : SaveState svc}
    (h : (svc.saveInstance faults correlationId ids).result ⟨a, db⟩ = (.error err, s')) :
    s' = ⟨a, db⟩ ∨ svc = .inventory ∧ a.uncommittedEvents ≠ [] ∧
      (persistFaulty svc faults a correlationId ids db).isOk ∧ faults.commit.isSome := by
  have orders : (Saganova.saveInstance faults correlationId ids).result ⟨a, db⟩ =
      (.error err, s') → s' = ⟨a, db⟩ := by
    intro h
    rw [saveInstance_result] at h
    split at h
    · cases h
    · split at h <;> cases h <;> rfl
  cases svc with
  | order => exact .inl (orders h)
  | payment => exact .inl (orders h)
  | inventory =>
    change (InventoryEventStoreRepository.saveInstance _ _ _).result _ = _ at h
    rw [InventoryEventStoreRepository.saveInstance_result] at h
    split at h
    · split at h <;> cases h
      exact .inl rfl
    · rename_i hempty
      split at h <;> cases h
      · rename_i hpersist hcommit
        exact .inr ⟨rfl, hempty, by rw [hpersist]; rfl, by rw [hcommit]; rfl⟩
      · exact .inl rfl

/-- A save that nothing makes fail stores the queued events. -/
theorem Service.saveInstance_ok (h : ∃ writes, (persist svc a correlationId ids).exec db [] =
    .ok ((), writes)) :
    ∃ s', (svc.saveInstance {} correlationId ids).result ⟨a, db⟩ = (.ok (), s') ∧
      EventsAppended svc a.id correlationId (expectedVersion svc a) a.uncommittedEvents db
        s'.db := by
  obtain ⟨writes, hexec⟩ := h
  have happended := appended_of_persist (Tx.runs_of_exec hexec)
  rw [Service.saveInstance_faultless]
  by_cases hempty : a.uncommittedEvents = []
  · rw [if_pos hempty, hempty]
    exact ⟨_, rfl, nofun, nofun, fun _ _ _ _ => rfl⟩
  · rw [if_neg hempty, hexec]
    exact ⟨_, rfl, happended⟩

end Result

/-! ## Retries -/

/-- Every statement goes through, and then the commit fails. -/
def CommitFails (svc : Service) (faults : Faults) (a : svc.Aggregate) (correlationId : String)
    (ids : ℕ → Uuid) (db : Db) : Prop :=
  (persistFaulty svc faults a correlationId ids db).isOk ∧ faults.commit.isSome

/-- A save that throws leaves the rows, the queued events and the version as they
were; and once nothing makes it fail, it stores those events with the sequences
they would have had. -/
def Retries (svc : Service) (faults : Faults) (a : svc.Aggregate) (correlationId : String)
    (ids : ℕ → Uuid) (db : Db) : Prop :=
  ∀ err s', (svc.saveInstance faults correlationId ids).result ⟨a, db⟩ = (.error err, s') →
    s'.db = db ∧ s'.aggregate.uncommittedEvents = a.uncommittedEvents ∧
      s'.aggregate.version = a.version ∧
      ∀ ids' db', (∃ writes, (persist svc a correlationId ids').exec db' [] = .ok ((), writes)) →
        ∃ s'', (svc.saveInstance {} correlationId ids').result ⟨s'.aggregate, db'⟩ =
            (.ok (), s'') ∧
          EventsAppended svc a.id correlationId (expectedVersion svc a) a.uncommittedEvents db'
            s''.db

/-- **A failed save can be retried, unless it is the commit of a reservation
that failed.** -/
theorem saveRetries (svc : Service) (faults : Faults) (a : svc.Aggregate) (correlationId : String)
    (ids : ℕ → Uuid) (db : Db) : Retries svc faults a correlationId ids db ↔
      ¬ (svc = .inventory ∧ a.uncommittedEvents ≠ [] ∧
        CommitFails svc faults a correlationId ids db) := by
  constructor
  · rintro hretries ⟨rfl, hqueued, hpersist, hcommit⟩
    obtain ⟨err, herr⟩ := Option.isSome_iff_exists.mp hcommit
    have hresult : (InventoryEventStoreRepository.saveInstance faults correlationId ids).result
        ⟨a, db⟩ = _ := InventoryEventStoreRepository.saveInstance_result
    rw [if_neg hqueued, herr] at hresult
    cases hwrites : persistFaulty .inventory faults a correlationId ids db with
    | error e =>
      rw [hwrites] at hpersist
      nomatch hpersist
    | ok writes =>
      rw [hwrites] at hresult
      -- the queue is empty though nothing was stored
      obtain ⟨-, hlost, -⟩ := hretries err _ hresult
      exact hqueued hlost.symm
  · intro hcondition err s' herror
    rcases Service.saveInstance_error herror with rfl | ⟨hsvc, hqueued, hpersist, hcommit⟩
    · exact ⟨rfl, rfl, rfl, fun ids' db' hexec => Service.saveInstance_ok hexec⟩
    · exact absurd ⟨hsvc, hqueued, hpersist, hcommit⟩ hcondition

/-- A reservation whose commit fails: nothing is stored, and nothing is queued. -/
theorem saveRetries_fails : ¬ ∀ (svc : Service) (faults : Faults) (a : svc.Aggregate)
    (correlationId : String) (ids : ℕ → Uuid) (db : Db),
      Retries svc faults a correlationId ids db := by
  intro hretries
  obtain ⟨-, hqueued, -⟩ := hretries .inventory { commit := some (.queryFailed "connection lost") }
    (StockAggregate.reserved order₁ reservation₁ [] "t") "c" (fun _ => uuidOf 0) [] _ _ rfl
  nomatch hqueued

end Saganova
