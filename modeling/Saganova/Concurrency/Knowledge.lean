import Saganova.Concurrency.RelyGuarantee

/-!
# What handlers know

What is known of every reachable state, and of the tasks that run in it, may be
used where it is shown what a handler does (`Reach.knowing`).  So a protocol can
be made to guarantee more (`Protocol.knowing`) than its handlers were first
shown to keep; those whose steps give it anyway are not looked at again
(`Proc.wp_knowing`).
-/

namespace Concurrency

variable {κ : Type} {ν : κ → Type} {ε A μ α : Type} {ρ : A → Type} [DecidableEq κ]
  {S S' : System ν ε ρ μ} {P : Protocol ν ε ρ μ} {G : Guard ν ε ρ μ} {s : State ν ε ρ μ}

/-- A system that starts and spawns more has more runs. -/
theorem Reach.widen (h : Reach S G s) (hcode : S'.code = S.code)
    (hstart : ∀ s, S.start s → S'.start s) (hspawn : ∀ s t, S.spawn s t → S'.spawn s t)
    (hreply : S'.reply = S.reply) (hfault : S'.fault = S.fault) : Reach S' G s := by
  refine h.invariant (I := Reach S' G) (fun s hs => .start (hstart s hs)) ?_
  intro s i c s' hs hstep hg
  refine hs.step ?_ hg
  cases hstep with
  | spawn hnone ht =>
    rw [← hcode]
    exact .spawn hnone (hspawn _ _ ht)
  | read hj => exact .read hj
  | commit hj he => exact .commit hj he
  | abort hj he =>
    rw [← hfault] at he
    exact .abort hj he
  | act hj hr =>
    rw [← hreply] at hr
    exact .act hj hr
  | stop hj => exact .stop hj

/-- A job is of a task that may be started. -/
theorem Reach.tasks {T : μ → Prop} (hspawn : ∀ s t, S.spawn s t → T t) (h : Reach S G s) :
    ∀ i job, s.jobs i = some job → T job.task := by
  refine h.invariant (I := fun s => ∀ i job, s.jobs i = some job → T job.task)
    (fun _ _ i job hj => by cases hj) ?_
  intro s i c s' hT hstep _ j job hj
  by_cases hji : j = i
  · subst hji
    obtain ⟨job', hj', htask, -⟩ | ⟨ht, -⟩ := hstep.task_of_jobs hj
    · exact htask ▸ hT j job' hj'
    · exact hspawn _ _ ht
  · exact hT j job ((hstep.jobs_ne hji).symm.trans hj)

/-- What a task was started for stays true while it runs. -/
theorem Protocol.task_of_reach (hkeeps : S.Keeps P G) {T : Shared ν ρ μ → μ → Prop}
    (spawned : ∀ s t, S.spawn s t → T s.shared t)
    (stays : ∀ t s s', P.rely s s' → T s t → T s' t) (h : Reach S G s) :
    ∀ i job, s.jobs i = some job → T s.shared job.task := by
  suffices Reach S G s ∧ ∀ i job, s.jobs i = some job → T s.shared job.task from this.2
  refine h.invariant (I := fun s => Reach S G s ∧
    ∀ i job, s.jobs i = some job → T s.shared job.task) (fun s hs => ⟨.start hs, ?_⟩) ?_
  · intro i job hj
    cases hj
  rintro s i c s' ⟨hreach, hT⟩ hstep hg
  refine ⟨hreach.step hstep hg, fun j job hj => ?_⟩
  refine stays _ _ _ ((Protocol.sound hkeeps hreach).inv_rely hkeeps hstep hg).2 ?_
  by_cases hji : j = i
  · subst hji
    obtain ⟨job', hj', htask, -⟩ | ⟨hspawn, -⟩ := hstep.task_of_jobs hj
    · rw [← htask]
      exact hT j job' hj'
    · exact spawned _ _ hspawn
  · exact hT j job ((hstep.jobs_ne hji).symm.trans hj)

/-- The steps are taken where `K` is known of the state and the task. -/
def Knowing (K : Shared ν ρ μ → μ → Prop) : Guard ν ε ρ μ :=
  fun s i _ => ∀ job, s.jobs i = some job → K s.shared job.task

variable {K : Shared ν ρ μ → μ → Prop} {E : Shared ν ρ μ → Shared ν ρ μ → Prop}

theorem Reach.knowing
    (hK : ∀ s, Reach S anything s → ∀ i job, s.jobs i = some job → K s.shared job.task)
    (h : Reach S anything s) : Reach S (Knowing K) s := by
  induction h with
  | start hs => exact .start hs
  | step h hstep _ ih => exact ih.step hstep (hK _ h _)

/-- `P` where `K` is known, and `E` is guaranteed besides. -/
def Protocol.knowing (P : Protocol ν ε ρ μ) (K : Shared ν ρ μ → μ → Prop)
    (E : Shared ν ρ μ → Shared ν ρ μ → Prop) : Protocol ν ε ρ μ where
  inv := P.inv
  assume := fun t _ s _ => K s t
  rely := P.rely
  guar := fun t seen s s' => P.guar t seen s s' ∧ E s s'
  rely_refl := P.rely_refl
  rely_trans := P.rely_trans
  guar_inv := fun hinv h => P.guar_inv hinv h.1
  guar_rely := fun hinv h => P.guar_rely hinv h.1

/-- A handler that keeps `P` keeps more, where its steps give it anyway. -/
theorem Proc.wp_knowing {t : μ} {Q : Post ν ε ρ μ α} {seen : Store ν} {s : Shared ν ρ μ}
    (hassume : ∀ seen s c, P.assume t seen s c)
    (hE : ∀ seen s s', P.inv s → K s t → P.guar t seen s s' → E s s') (p : Proc ν ε ρ α)
    (h : p.wp S P t Q seen s) : p.wp S (P.knowing K E) t Q seen s := by
  induction p generalizing seen s with
  | pure a => exact h
  | throw e => exact h
  | read next ih => exact fun s' hr hi _ => ih _ (h s' hr hi (hassume _ _ _))
  | tx body next ih =>
    intro s' hr hi
    obtain ⟨hok, herr⟩ := h s' hr hi
    refine ⟨fun w hw hK => ?_, fun e he _ => ih _ (herr e he (hassume _ _ _))⟩
    obtain ⟨hguar, hrest⟩ := hok w hw (hassume _ _ _)
    exact ⟨⟨hguar, hE _ _ _ hi hK hguar⟩, ih _ hrest⟩
  | act a next ih =>
    intro s' hr hi r hreply hK
    obtain ⟨hguar, hrest⟩ := h s' hr hi r hreply (hassume _ _ _)
    exact ⟨⟨hguar, hE _ _ _ hi hK hguar⟩, ih _ hrest⟩

theorem System.Keeps.knowing (hstart : ∀ s, S.start s → P.inv s)
    (hcode : ∀ s t, (S.code t).wp S (P.knowing K E) t (fun _ _ _ => True) [] s) :
    S.Keeps (P.knowing K E) (Knowing K) where
  start := hstart
  assume := fun _ _ _ job hg hj => hg job hj
  code := fun s t _ _ => hcode s.shared t

end Concurrency
