import Saganova.Concurrency.System

/-!
# Handlers that follow others

`p.Follows p'`: on rows that satisfy `I` the handler `p` does what `p'` does,
but may fail where `p'` goes on: a transaction may fail on its own, and the
handler may give up.

Where the handlers that commit in the runs of a system follow those of another,
its committed rows are those of a run of the other (`Reach.follows`).  What
holds of all of those is then not proved again.
-/

namespace Concurrency

variable {κ : Type} {ν : κ → Type} {ε A μ α : Type} {ρ : A → Type} [DecidableEq κ]

/-- `answer` says which answers an action gets; `fault` which errors a
transaction of the second handler may fail with on its own. -/
inductive Proc.Follows (I : Store ν → Prop) (fault : ε → Prop) (answer : (a : A) → ρ a → Prop) :
    Proc ν ε ρ α → Proc ν ε ρ α → Prop
  | pure (a : α) : Follows I fault answer (.pure a) (.pure a)
  | throw (e : ε) (p' : Proc ν ε ρ α) : Follows I fault answer (.throw e) p'
  | read {next next' : Store ν → Proc ν ε ρ α} :
      (∀ db, I db → Follows I fault answer (next db) (next' db)) →
      Follows I fault answer (.read next) (.read next')
  | tx {body body' : Tx ν ε Unit} {next next' : Except ε Unit → Proc ν ε ρ α} :
      (∀ db w, I db → body.exec db [] = .ok ((), w) →
        body'.exec db [] = .ok ((), w) ∧ I (w ++ db)) →
      (∀ db e, I db → body.exec db [] = .error e → fault e ∨ body'.exec db [] = .error e) →
      (∀ r, Follows I fault answer (next r) (next' r)) →
      Follows I fault answer (.tx body next) (.tx body' next')
  | act {a : A} {next next' : ρ a → Proc ν ε ρ α} :
      (∀ r, answer a r → Follows I fault answer (next r) (next' r)) →
      Follows I fault answer (.act a next) (.act a next')

/-- The handlers of the tasks in `T` follow those of `S'`, which may start any
task at any time, and no other task of `S` commits. -/
structure System.Follows (S S' : System ν ε ρ μ) (G : Guard ν ε ρ μ) (T : μ → Prop)
    (I : Store ν → Prop) (answer : (a : A) → ρ a → Prop) : Prop where
  start : ∀ s, S.start s → I s.db ∧ ∃ s', S'.start s' ∧ s'.db = s.db
  spawn : ∀ s t, S'.spawn s t
  code : ∀ t, T t → (S.code t).Follows I S'.fault answer (S'.code t)
  reply : ∀ s t a r, S.reply s t a r → answer a r ∧ ∀ s', S'.reply s' t a r
  fault : ∀ e, S.fault e → S'.fault e
  commits : ∀ s i w job, G s i (.commit w) → s.jobs i = some job → T job.task

/-- What a run of `S'` has where one of `S` has the job `o`: a job that it
follows, or none for a task that does not commit. -/
def JobFollows (fault : ε → Prop) (T : μ → Prop) (I : Store ν → Prop) (answer : (a : A) → ρ a → Prop)
    (o o' : Option (Job ν ε ρ μ)) : Prop :=
  (o' = none ∧ ∀ job, o = some job → ¬ T job.task) ∨
  ∃ t seen seen' p p', o = some ⟨t, seen, p⟩ ∧ o' = some ⟨t, seen', p'⟩ ∧
    p.Follows I fault answer p'

theorem jobFollows_set {fault : ε → Prop} {T : μ → Prop} {I : Store ν → Prop}
    {answer : (a : A) → ρ a → Prop} (s s' : State ν ε ρ μ) (i : ℕ) (t : μ) (seen seen' : Store ν)
    {p p' : Proc ν ε ρ Unit} (h : p.Follows I fault answer p') :
    JobFollows fault T I answer ((s.set i (some ⟨t, seen, p⟩)).jobs i)
      ((s'.set i (some ⟨t, seen', p'⟩)).jobs i) :=
  .inr ⟨t, seen, seen', p, p', State.set_jobs_self _ _ _, State.set_jobs_self _ _ _, h⟩

/-- A run of `S'` that goes with the state `s` of a run of `S`. -/
structure State.Followed (S' : System ν ε ρ μ) (T : μ → Prop) (I : Store ν → Prop)
    (answer : (a : A) → ρ a → Prop) (s s' : State ν ε ρ μ) : Prop where
  reach : Reach S' anything s'
  db : s'.shared.db = s.shared.db
  inv : I s.shared.db
  jobs : ∀ i, JobFollows S'.fault T I answer (s.jobs i) (s'.jobs i)

section Step

variable {S S' : System ν ε ρ μ} {G : Guard ν ε ρ μ} {T : μ → Prop} {I : Store ν → Prop}
  {answer : (a : A) → ρ a → Prop} {s s' s₁ : State ν ε ρ μ} {i : ℕ}

/-- The run of `S'` takes the step too. -/
theorem State.Followed.both (h : State.Followed S' T I answer s s₁) {c : Choice ν ε ρ μ}
    {s₁' : State ν ε ρ μ} (hjobs : ∀ k, k ≠ i → s'.jobs k = s.jobs k)
    (hstep : Step S' s₁ i c s₁') (hdb : s₁'.shared.db = s'.shared.db) (hinv : I s'.shared.db)
    (hjob : JobFollows S'.fault T I answer (s'.jobs i) (s₁'.jobs i)) :
    State.Followed S' T I answer s' s₁' where
  reach := h.reach.step hstep trivial
  db := hdb
  inv := hinv
  jobs k := by
    by_cases hk : k = i
    · exact hk ▸ hjob
    · rw [hjobs k hk, hstep.jobs_ne hk]
      exact h.jobs k

/-- It waits: the job at `i` has no counterpart, and changes no row. -/
theorem State.Followed.alone (h : State.Followed S' T I answer s s₁)
    (hjobs : ∀ k, k ≠ i → s'.jobs k = s.jobs k) (hdb : s'.shared.db = s.shared.db)
    (hnone : s₁.jobs i = none) (hjob : ∀ job, s'.jobs i = some job → ¬ T job.task) :
    State.Followed S' T I answer s' s₁ where
  reach := h.reach
  db := h.db.trans hdb.symm
  inv := hdb ▸ h.inv
  jobs k := by
    by_cases hk : k = i
    · subst hk
      exact .inl ⟨hnone, hjob⟩
    · rw [hjobs k hk]
      exact h.jobs k

theorem State.Followed.step (hfollows : S.Follows S' G T I answer)
    (h : State.Followed S' T I answer s s₁) {c : Choice ν ε ρ μ} (hstep : Step S s i c s') (hg : G s i c) :
    ∃ s₁', State.Followed S' T I answer s' s₁' := by
  have hothers : ∀ k, k ≠ i → s'.jobs k = s.jobs k := fun k hk => hstep.jobs_ne hk
  -- a step of a job without a counterpart
  have halone : s₁.jobs i = none → s'.shared.db = s.shared.db →
      (∀ job, s.jobs i = some job → ¬ T job.task) →
      (∀ job, s'.jobs i = some job → ∃ job', s.jobs i = some job' ∧ job'.task = job.task) →
      ∃ s₁', State.Followed S' T I answer s' s₁' := fun hnone hdb hT htask =>
    ⟨s₁, h.alone hothers hdb hnone fun job hjob => by
      obtain ⟨job', hjob', heq⟩ := htask job hjob
      exact heq ▸ hT job' hjob'⟩
  cases hstep with
  | @spawn t hj hspawn =>
    obtain ⟨hnone, -⟩ | ⟨_, _, _, _, _, hsome, -⟩ := h.jobs i
    · by_cases hT : T t
      · exact ⟨_, h.both hothers (.spawn hnone (hfollows.spawn _ t)) h.db h.inv
          (jobFollows_set s s₁ i t [] [] (hfollows.code t hT))⟩
      · refine ⟨s₁, h.alone hothers rfl hnone fun job hjob => ?_⟩
        cases (State.set_jobs_self s i _).symm.trans hjob
        exact hT
    · nomatch hj.symm.trans hsome
  | read hj =>
    obtain ⟨hnone, hT⟩ | ⟨_, _, seen', _, p', hsome, hsome', hp⟩ := h.jobs i
    · refine halone hnone rfl hT fun job hjob => ?_
      cases (State.set_jobs_self s i _).symm.trans hjob
      exact ⟨_, hj, rfl⟩
    · cases hj.symm.trans hsome
      cases hp with
      | read hnext =>
        refine ⟨_, h.both hothers (.read hsome') h.db h.inv ?_⟩
        refine jobFollows_set s s₁ i _ _ _ ?_
        rw [h.db]
        exact hnext _ h.inv
  | @commit t seen w body next hj hexec =>
    obtain ⟨hnone, hT⟩ | ⟨_, _, seen', _, p', hsome, hsome', hp⟩ := h.jobs i
    · exact absurd (hfollows.commits s i w _ hg hj) (hT _ hj)
    · cases hj.symm.trans hsome
      cases hp with
      | tx hok herror hnext =>
        obtain ⟨hexec', hinv⟩ := hok _ _ h.inv hexec
        rw [← h.db] at hexec'
        exact ⟨_, h.both hothers (.commit hsome' hexec') (congrArg (w ++ ·) h.db) hinv
          (jobFollows_set s s₁ i t seen seen' (hnext _))⟩
  | @abort t seen body next e hj he =>
    obtain ⟨hnone, hT⟩ | ⟨_, _, seen', _, p', hsome, hsome', hp⟩ := h.jobs i
    · refine halone hnone rfl hT fun job hjob => ?_
      cases (State.set_jobs_self s i _).symm.trans hjob
      exact ⟨_, hj, rfl⟩
    · cases hj.symm.trans hsome
      cases hp with
      | tx hok herror hnext =>
        have he' : S'.fault e ∨ _ := he.elim (fun hf => .inl (hfollows.fault e hf)) (herror _ e h.inv)
        rw [← h.db] at he'
        exact ⟨_, h.both hothers (.abort hsome' he') h.db h.inv
          (jobFollows_set s s₁ i t seen seen' (hnext _))⟩
  | @act t seen a r next hj hr =>
    obtain ⟨hnone, hT⟩ | ⟨_, _, seen', _, p', hsome, hsome', hp⟩ := h.jobs i
    · refine halone hnone rfl hT fun job hjob => ?_
      cases (State.set_jobs_self s i _).symm.trans hjob
      exact ⟨_, hj, rfl⟩
    · cases hj.symm.trans hsome
      cases hp with
      | act hnext =>
        obtain ⟨hanswer, hr'⟩ := hfollows.reply _ t a r hr
        exact ⟨_, h.both hothers (.act hsome' (hr' _)) h.db h.inv
          (jobFollows_set s s₁ i t seen seen' (hnext r hanswer))⟩
  | stop hj =>
    obtain ⟨hnone, hT⟩ | ⟨_, _, seen', _, p', hsome, hsome', hp⟩ := h.jobs i
    · refine ⟨s₁, h.alone hothers rfl hnone fun job hjob => ?_⟩
      cases (State.set_jobs_self s i _).symm.trans hjob
    · refine ⟨_, h.both hothers (.stop hsome') h.db h.inv (.inl ⟨State.set_jobs_self _ _ _, ?_⟩)⟩
      intro job hjob
      cases (State.set_jobs_self s i _).symm.trans hjob

/-- **The followed run.**  The committed rows of a run of `S` are those of a run of `S'`. -/
theorem Reach.follows (hfollows : S.Follows S' G T I answer) (h : Reach S G s) :
    ∃ s', State.Followed S' T I answer s s' := by
  induction h with
  | start hstart =>
    obtain ⟨hinv, s', hstart', hdb⟩ := hfollows.start _ hstart
    exact ⟨.idle s', .start hstart', hdb, hinv, fun _ => .inl ⟨rfl, fun _ hjob => nomatch hjob⟩⟩
  | step _ hstep hg ih =>
    obtain ⟨s₁, hs₁⟩ := ih
    exact hs₁.step hfollows hstep hg

end Step

end Concurrency
