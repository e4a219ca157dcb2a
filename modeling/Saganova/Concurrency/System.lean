import Saganova.Concurrency.Handler

/-!
# Systems of concurrent handlers

Any number of handlers run at once (`State.jobs`, by job number), each one
`Proc` step at a time, over one `Shared` state.  A `System` says what the
handler of each task is, which tasks may be started, what the outside may
answer, and which errors the database may raise on its own.

A step is a `Choice`.  `stop` takes a job away: a handler that has ended, or
one whose process crashed at that point.  A job keeps the rows its last SELECT
returned (`seen`), so that statements can compare what a handler read with
what it later overwrites.

`Reach S G` are the states of the runs whose steps all meet the guard `G`;
`Reach S anything` are all reachable states.
-/

namespace Concurrency

variable {κ : Type} {ν : κ → Type} {ε A μ : Type} {ρ : A → Type}

/-- A handler in progress. -/
structure Job (ν : κ → Type) (ε : Type) (ρ : A → Type) (μ : Type) where
  task : μ
  seen : Store ν
  code : Proc ν ε ρ Unit

structure State (ν : κ → Type) (ε : Type) (ρ : A → Type) (μ : Type) where
  shared : Shared ν ρ μ
  jobs : ℕ → Option (Job ν ε ρ μ)

structure System (ν : κ → Type) (ε : Type) (ρ : A → Type) (μ : Type) where
  code : μ → Proc ν ε ρ Unit
  start : Shared ν ρ μ → Prop
  /-- the tasks that may be started in a state -/
  spawn : State ν ε ρ μ → μ → Prop
  /-- what the outside may answer to an action of a task -/
  reply : Shared ν ρ μ → μ → (a : A) → ρ a → Prop
  /-- the errors a statement or a commit may fail with on its own -/
  fault : ε → Prop

inductive Choice (ν : κ → Type) (ε : Type) (ρ : A → Type) (μ : Type) where
  | spawn (task : μ)
  | read
  | commit (writes : Store ν)
  | abort (e : ε)
  | act (a : A) (r : ρ a)
  | stop

theorem update_eq_some {ι β : Type} [DecidableEq ι] {f : ι → Option β} {i k : ι} {o : Option β} {x : β}
    (h : Function.update f i o k = some x) : k = i ∧ o = some x ∨ k ≠ i ∧ f k = some x := by
  by_cases hk : k = i
  · subst hk
    exact .inl ⟨rfl, by simpa using h⟩
  · exact .inr ⟨hk, by simpa [hk] using h⟩

namespace State

def set (s : State ν ε ρ μ) (i : ℕ) (j : Option (Job ν ε ρ μ)) : State ν ε ρ μ :=
  { s with jobs := Function.update s.jobs i j }

@[simp] theorem set_shared (s : State ν ε ρ μ) (i : ℕ) (j : Option (Job ν ε ρ μ)) :
    (s.set i j).shared = s.shared := rfl

@[simp] theorem set_jobs_self (s : State ν ε ρ μ) (i : ℕ) (j : Option (Job ν ε ρ μ)) :
    (s.set i j).jobs i = j := by simp [set]

theorem set_jobs_ne (s : State ν ε ρ μ) {i k : ℕ} (j : Option (Job ν ε ρ μ)) (h : k ≠ i) :
    (s.set i j).jobs k = s.jobs k := by simp [set, h]

/-- A job after an update is the new one or one that was there. -/
theorem jobs_set {s : State ν ε ρ μ} {i k : ℕ} {j : Option (Job ν ε ρ μ)} {job : Job ν ε ρ μ}
    (h : (s.set i j).jobs k = some job) :
    k = i ∧ j = some job ∨ k ≠ i ∧ s.jobs k = some job := update_eq_some h

/-- The state with no handler running. -/
def idle (s : Shared ν ρ μ) : State ν ε ρ μ := { shared := s, jobs := fun _ => none }

end State

variable [DecidableEq κ]

/-- One step of job `i`. -/
inductive Step (S : System ν ε ρ μ) : State ν ε ρ μ → ℕ → Choice ν ε ρ μ → State ν ε ρ μ → Prop
  | spawn {s : State ν ε ρ μ} {i : ℕ} {t : μ} :
      s.jobs i = none → S.spawn s t → Step S s i (.spawn t) (s.set i (some ⟨t, [], S.code t⟩))
  | read {s : State ν ε ρ μ} {i : ℕ} {t : μ} {seen : Store ν} {next : Store ν → Proc ν ε ρ Unit} :
      s.jobs i = some ⟨t, seen, .read next⟩ →
      Step S s i .read (s.set i (some ⟨t, s.shared.db, next s.shared.db⟩))
  | commit {s : State ν ε ρ μ} {i : ℕ} {t : μ} {seen writes : Store ν} {body : Tx ν ε Unit}
      {next : Except ε Unit → Proc ν ε ρ Unit} :
      s.jobs i = some ⟨t, seen, .tx body next⟩ →
      body.exec s.shared.db [] = .ok ((), writes) →
      Step S s i (.commit writes)
        { s.set i (some ⟨t, seen, next (.ok ())⟩) with shared := s.shared.commit t writes }
  | abort {s : State ν ε ρ μ} {i : ℕ} {t : μ} {seen : Store ν} {body : Tx ν ε Unit}
      {next : Except ε Unit → Proc ν ε ρ Unit} {e : ε} :
      s.jobs i = some ⟨t, seen, .tx body next⟩ →
      S.fault e ∨ body.exec s.shared.db [] = .error e →
      Step S s i (.abort e) (s.set i (some ⟨t, seen, next (.error e)⟩))
  | act {s : State ν ε ρ μ} {i : ℕ} {t : μ} {seen : Store ν} {a : A} {r : ρ a}
      {next : ρ a → Proc ν ε ρ Unit} :
      s.jobs i = some ⟨t, seen, .act a next⟩ → S.reply s.shared t a r →
      Step S s i (.act a r)
        { s.set i (some ⟨t, seen, next r⟩) with shared := s.shared.acted t a r }
  | stop {s : State ν ε ρ μ} {i : ℕ} {job : Job ν ε ρ μ} :
      s.jobs i = some job → Step S s i .stop (s.set i none)

/-- A condition on the steps of a run. -/
abbrev Guard (ν : κ → Type) (ε : Type) (ρ : A → Type) (μ : Type) :=
  State ν ε ρ μ → ℕ → Choice ν ε ρ μ → Prop

/-- The guard that every step meets. -/
def anything : Guard ν ε ρ μ := fun _ _ _ => True

/-- The states of the runs from `S.start` whose steps all meet `G`. -/
inductive Reach (S : System ν ε ρ μ) (G : Guard ν ε ρ μ) : State ν ε ρ μ → Prop
  | start {s : Shared ν ρ μ} : S.start s → Reach S G (.idle s)
  | step {s s' : State ν ε ρ μ} {i : ℕ} {c : Choice ν ε ρ μ} :
      Reach S G s → Step S s i c s' → G s i c → Reach S G s'

/-- Invariants are proved once for a start state and once for a step. -/
theorem Reach.invariant {S : System ν ε ρ μ} {G : Guard ν ε ρ μ} {I : State ν ε ρ μ → Prop}
    (start : ∀ s, S.start s → I (.idle s))
    (step : ∀ s i c s', I s → Step S s i c s' → G s i c → I s')
    {s : State ν ε ρ μ} (h : Reach S G s) : I s := by
  induction h with
  | start h => exact start _ h
  | step _ hstep hg ih => exact step _ _ _ _ ih hstep hg

/-- Fewer runs meet a stronger guard. -/
theorem Reach.mono {S : System ν ε ρ μ} {G G' : Guard ν ε ρ μ} (hG : ∀ s i c, G s i c → G' s i c)
    {s : State ν ε ρ μ} (h : Reach S G s) : Reach S G' s := by
  induction h with
  | start h => exact .start h
  | step _ hstep hg ih => exact .step ih hstep (hG _ _ _ hg)

/-- A step leaves the other jobs alone. -/
theorem Step.jobs_ne {S : System ν ε ρ μ} {s s' : State ν ε ρ μ} {i k : ℕ} {c : Choice ν ε ρ μ}
    (h : Step S s i c s') (hk : k ≠ i) : s'.jobs k = s.jobs k := by
  cases h <;> exact State.set_jobs_ne _ _ hk

/-- A job keeps its task, and has it from when it was started; it has seen what
it had seen, or the rows as they are. -/
theorem Step.task_of_jobs {S : System ν ε ρ μ} {s s' : State ν ε ρ μ} {i : ℕ} {c : Choice ν ε ρ μ}
    (h : Step S s i c s') {job : Job ν ε ρ μ} (hj : s'.jobs i = some job) :
    (∃ job', s.jobs i = some job' ∧ job'.task = job.task ∧
      (job.seen = job'.seen ∨ job.seen = s.shared.db)) ∨ S.spawn s job.task ∧ job.seen = [] := by
  cases h with
  | spawn _ hspawn =>
    cases (State.set_jobs_self s i _).symm.trans hj
    exact .inr ⟨hspawn, rfl⟩
  | read hjob =>
    cases (State.set_jobs_self s i _).symm.trans hj
    exact .inl ⟨_, hjob, rfl, .inr rfl⟩
  | commit hjob _ =>
    cases (State.set_jobs_self s i _).symm.trans hj
    exact .inl ⟨_, hjob, rfl, .inl rfl⟩
  | abort hjob _ =>
    cases (State.set_jobs_self s i _).symm.trans hj
    exact .inl ⟨_, hjob, rfl, .inl rfl⟩
  | act hjob _ =>
    cases (State.set_jobs_self s i _).symm.trans hj
    exact .inl ⟨_, hjob, rfl, .inl rfl⟩
  | stop _ => cases (State.set_jobs_self s i _).symm.trans hj

/-- What a step does to the shared state: nothing, an action, or a commit. -/
theorem Step.shared_cases {S : System ν ε ρ μ} {s s' : State ν ε ρ μ} {i : ℕ} {c : Choice ν ε ρ μ}
    (h : Step S s i c s') :
    s'.shared = s.shared ∨
    (∃ job a r, s.jobs i = some job ∧ c = .act a r ∧ S.reply s.shared job.task a r ∧
      s'.shared = s.shared.acted job.task a r) ∨
    (∃ job writes, s.jobs i = some job ∧ c = .commit writes ∧
      s'.shared = s.shared.commit job.task writes) := by
  cases h with
  | spawn hj hs => exact .inl rfl
  | read hj => exact .inl rfl
  | commit hj he => exact .inr (.inr ⟨_, _, hj, rfl, rfl⟩)
  | abort hj he => exact .inl rfl
  | act hj hr => exact .inr (.inl ⟨_, _, _, hj, rfl, hr, rfl⟩)
  | stop hj => exact .inl rfl

/-! ## Executions with one transaction -/

section OneTx

variable {S : System ν ε ρ μ} {s s' : State ν ε ρ μ} {i : ℕ} {c : Choice ν ε ρ μ}

/-- A transaction of the job ends, one way or the other. -/
def Choice.EndsTx (c : Choice ν ε ρ μ) : Prop := (∃ w, c = .commit w) ∨ ∃ e, c = .abort e

/-- From `s` to `s'`, the job at `i` is not started anew. -/
inductive During (S : System ν ε ρ μ) (i : ℕ) (s : State ν ε ρ μ) : State ν ε ρ μ → Prop
  | refl : During S i s s
  | step {s₁ s₂ : State ν ε ρ μ} {k : ℕ} {c : Choice ν ε ρ μ} :
      During S i s s₁ → Step S s₁ k c s₂ → (k = i → ∀ t, c ≠ .spawn t) → During S i s s₂

/-- The job at `i`, if there is one, only reads from here on. -/
def State.OnlyReads (s : State ν ε ρ μ) (i : ℕ) : Prop :=
  ∀ job, s.jobs i = some job → job.code.ReadOnly

/-- Only a commit changes the rows. -/
theorem Step.db_of_ne_commit (h : Step S s i c s') (hc : ∀ w, c ≠ .commit w) :
    s'.shared.db = s.shared.db := by
  rcases h.shared_cases with heq | ⟨_, _, _, -, -, -, heq⟩ | ⟨_, w, -, hcommit, -⟩
  · rw [heq]
  · rw [heq]
    rfl
  · exact absurd hcommit (hc w)

/-- A job that only reads ends no transaction, and goes on reading. -/
theorem Step.onlyReads (h : Step S s i c s') (hs : s.OnlyReads i) (hc : ∀ t, c ≠ .spawn t) :
    ¬ c.EndsTx ∧ s'.OnlyReads i := by
  unfold State.OnlyReads
  cases h with
  | spawn _ _ => exact absurd rfl (hc _)
  | read hj =>
    refine ⟨by simp [Choice.EndsTx], fun job hjob => ?_⟩
    cases (State.set_jobs_self s i _).symm.trans hjob
    exact hs _ hj _
  | commit hj _ => exact absurd (hs _ hj) id
  | abort hj _ => exact absurd (hs _ hj) id
  | act hj _ =>
    refine ⟨by simp [Choice.EndsTx], fun job hjob => ?_⟩
    cases (State.set_jobs_self s i _).symm.trans hjob
    exact hs _ hj _
  | stop _ =>
    refine ⟨by simp [Choice.EndsTx], fun job hjob => ?_⟩
    cases (State.set_jobs_self s i _).symm.trans hjob

theorem During.onlyReads (h : During S i s s') (hs : s.OnlyReads i) : s'.OnlyReads i := by
  induction h with
  | refl => exact hs
  | @step s₁ s₂ k c _ hstep hc ih =>
    by_cases hk : k = i
    · subst hk
      exact (hstep.onlyReads ih (hc rfl)).2
    · intro job hjob
      exact ih job ((hstep.jobs_ne fun h => hk h.symm).symm.trans hjob)

/-- After its transaction such a handler only reads. -/
theorem Step.onlyReads_of_oneTx (h : Step S s i c s') (hc : c.EndsTx)
    (hs : ∀ job, s.jobs i = some job → job.code.OneTx) : s'.OnlyReads i := by
  intro job hjob
  cases h with
  | commit hj _ =>
    cases (State.set_jobs_self s i _).symm.trans hjob
    exact hs _ hj _
  | abort hj _ =>
    cases (State.set_jobs_self s i _).symm.trans hjob
    exact hs _ hj _
  | _ => simp [Choice.EndsTx] at hc

/-- The handlers of `T` have one transaction, in every state of every run. -/
theorem Reach.oneTx {G : Guard ν ε ρ μ} {T : μ → Prop} (hcode : ∀ t, T t → (S.code t).OneTx)
    (h : Reach S G s) : ∀ i job, s.jobs i = some job → T job.task → job.code.OneTx := by
  refine h.invariant (I := fun s => ∀ i job, s.jobs i = some job → T job.task → job.code.OneTx)
    (fun _ _ i job hj => by cases hj) ?_
  intro s i c s' hs hstep _ k job hjob hT
  by_cases hk : k = i
  · subst hk
    cases hstep with
    | spawn _ _ =>
      cases (State.set_jobs_self s k _).symm.trans hjob
      exact hcode _ hT
    | read hj =>
      cases (State.set_jobs_self s k _).symm.trans hjob
      exact hs k _ hj hT _
    | commit hj _ =>
      cases (State.set_jobs_self s k _).symm.trans hjob
      exact Proc.ReadOnly.oneTx (hs k _ hj hT _)
    | abort hj _ =>
      cases (State.set_jobs_self s k _).symm.trans hjob
      exact Proc.ReadOnly.oneTx (hs k _ hj hT _)
    | act hj _ =>
      cases (State.set_jobs_self s k _).symm.trans hjob
      exact hs k _ hj hT _
    | stop _ => cases (State.set_jobs_self s k _).symm.trans hjob
  · exact hs k job ((hstep.jobs_ne hk).symm.trans hjob) hT

end OneTx

end Concurrency
