import Saganova.Concurrency.System

/-!
# Rely and guarantee

A `Protocol` is a promise every handler makes: what a step of its own does to
the shared state (`guar`, which may mention the task and the rows it last
read), and what it may rely on of the steps of others (`rely`), under an
invariant of the shared state.  Where only the runs of a guard are looked at,
`assume` is what the guard says of one step.

`Proc.wp` is the obligation of one handler, by recursion on its code: before
each of its steps others may have run (any `rely` steps), and each commit and
each action that meets `assume` has to meet `guar`.  `Protocol.sound` turns it into facts about
every run: the invariant holds in every reachable state, and every step
changes the shared state as `guar` says.
-/

namespace Concurrency

variable {κ : Type} {ν : κ → Type} {ε A μ α β : Type} {ρ : A → Type}

structure Protocol (ν : κ → Type) (ε : Type) (ρ : A → Type) (μ : Type) where
  inv : Shared ν ρ μ → Prop
  /-- what is known of a step of the handler of a task; the store is what its last SELECT saw -/
  assume : μ → Store ν → Shared ν ρ μ → Choice ν ε ρ μ → Prop := fun _ _ _ _ => True
  /-- what others may do between two steps of a handler -/
  rely : Shared ν ρ μ → Shared ν ρ μ → Prop
  /-- what a step of the handler of a task does -/
  guar : μ → Store ν → Shared ν ρ μ → Shared ν ρ μ → Prop
  rely_refl : ∀ s, rely s s
  rely_trans : ∀ {s₁ s₂ s₃}, rely s₁ s₂ → rely s₂ s₃ → rely s₁ s₃
  guar_inv : ∀ {t seen s s'}, inv s → guar t seen s s' → inv s'
  guar_rely : ∀ {t seen s s'}, inv s → guar t seen s s' → rely s s'

/-- What holds when a handler, or a part of one, ends. -/
abbrev Post (ν : κ → Type) (ε : Type) (ρ : A → Type) (μ α : Type) :=
  Except ε α → Store ν → Shared ν ρ μ → Prop

/-- Go on with `p` after a result, and keep `Q` after an error. -/
def Post.onOk (p : α → Store ν → Shared ν ρ μ → Prop) (Q : ε → Store ν → Shared ν ρ μ → Prop) :
    Post ν ε ρ μ α
  | .ok a, seen, s => p a seen s
  | .error e, seen, s => Q e seen s

section Wp

variable [DecidableEq κ] (S : System ν ε ρ μ) (P : Protocol ν ε ρ μ) (t : μ)

/-- The handler `p` of `t`, which last read `seen`, keeps the protocol from
`s` on and ends in `Q`. -/
def Proc.wp (Q : Post ν ε ρ μ α) : Proc ν ε ρ α → Store ν → Shared ν ρ μ → Prop
  | .pure a, seen, s => Q (.ok a) seen s
  | .throw e, seen, s => Q (.error e) seen s
  | .read next, seen, s => ∀ s', P.rely s s' → P.inv s' → P.assume t seen s' .read →
      wp Q (next s'.db) s'.db s'
  | .tx body next, seen, s => ∀ s', P.rely s s' → P.inv s' →
      (∀ w, body.exec s'.db [] = .ok ((), w) → P.assume t seen s' (.commit w) →
        P.guar t seen s' (s'.commit t w) ∧ wp Q (next (.ok ())) seen (s'.commit t w)) ∧
      (∀ e, S.fault e ∨ body.exec s'.db [] = .error e → P.assume t seen s' (.abort e) →
        wp Q (next (.error e)) seen s')
  | .act a next, seen, s => ∀ s', P.rely s s' → P.inv s' → ∀ r, S.reply s' t a r →
      P.assume t seen s' (.act a r) →
      P.guar t seen s' (s'.acted t a r) ∧ wp Q (next r) seen (s'.acted t a r)

variable {S P t} {seen : Store ν} {s : Shared ν ρ μ}

@[simp] theorem Proc.wp_pure (Q : Post ν ε ρ μ α) (a : α) :
    Proc.wp S P t Q (Pure.pure a) seen s ↔ Q (.ok a) seen s := Iff.rfl

@[simp] theorem Proc.wp_throw (Q : Post ν ε ρ μ α) (e : ε) :
    Proc.wp S P t Q (MonadExcept.throw e) seen s ↔ Q (.error e) seen s := Iff.rfl

theorem Proc.wp_mono {Q Q' : Post ν ε ρ μ α} (hQ : ∀ r seen s, Q r seen s → Q' r seen s)
    (p : Proc ν ε ρ α) (h : p.wp S P t Q seen s) : p.wp S P t Q' seen s := by
  induction p generalizing seen s with
  | pure a => exact hQ _ _ _ h
  | throw e => exact hQ _ _ _ h
  | read next ih => exact fun s' hr hi ha => ih _ (h s' hr hi ha)
  | tx body next ih =>
    intro s' hr hi
    obtain ⟨hok, herr⟩ := h s' hr hi
    refine ⟨fun w hw ha => ⟨(hok w hw ha).1, ih _ (hok w hw ha).2⟩, fun e he ha => ?_⟩
    exact ih _ (herr e he ha)
  | act a next ih =>
    intro s' hr hi r hreply ha
    exact ⟨(h s' hr hi r hreply ha).1, ih _ (h s' hr hi r hreply ha).2⟩

/-- A sequence: the first part ends where the second may start. -/
theorem Proc.wp_bind {Q : Post ν ε ρ μ β} (p : Proc ν ε ρ α) (f : α → Proc ν ε ρ β)
    (h : p.wp S P t (.onOk (fun a => (f a).wp S P t Q) fun e => Q (.error e)) seen s) :
    (p >>= f).wp S P t Q seen s := by
  induction p generalizing seen s with
  | pure a => exact h
  | throw e => exact h
  | read next ih => exact fun s' hr hi ha => ih _ (h s' hr hi ha)
  | tx body next ih =>
    intro s' hr hi
    obtain ⟨hok, herr⟩ := h s' hr hi
    refine ⟨fun w hw ha => ⟨(hok w hw ha).1, ih _ (hok w hw ha).2⟩, fun e he ha => ?_⟩
    exact ih _ (herr e he ha)
  | act a next ih =>
    intro s' hr hi r hreply ha
    exact ⟨(h s' hr hi r hreply ha).1, ih _ (h s' hr hi r hreply ha).2⟩

/-- A caught error goes on where the `catch` may start. -/
theorem Proc.wp_tryCatch {Q : Post ν ε ρ μ α} (p : Proc ν ε ρ α) (f : ε → Proc ν ε ρ α)
    (h : p.wp S P t (.onOk (fun a => Q (.ok a)) fun e => (f e).wp S P t Q) seen s) :
    Proc.wp S P t Q (MonadExcept.tryCatch p f) seen s := by
  induction p generalizing seen s with
  | pure a => exact h
  | throw e => exact h
  | read next ih => exact fun s' hr hi ha => ih _ (h s' hr hi ha)
  | tx body next ih =>
    intro s' hr hi
    obtain ⟨hok, herr⟩ := h s' hr hi
    refine ⟨fun w hw ha => ⟨(hok w hw ha).1, ih _ (hok w hw ha).2⟩, fun e he ha => ?_⟩
    exact ih _ (herr e he ha)
  | act a next ih =>
    intro s' hr hi r hreply ha
    exact ⟨(h s' hr hi r hreply ha).1, ih _ (h s' hr hi r hreply ha).2⟩

/-- The obligation survives the steps of others, where the end asks nothing. -/
theorem Proc.wp_rely {s' : Shared ν ρ μ} {p : Proc ν ε ρ α} (hr : P.rely s s')
    (h : p.wp S P t (fun _ _ _ => True) seen s) : p.wp S P t (fun _ _ _ => True) seen s' := by
  cases p with
  | pure a => trivial
  | throw e => trivial
  | read next => exact fun s'' hr' => h s'' (P.rely_trans hr hr')
  | tx body next => exact fun s'' hr' => h s'' (P.rely_trans hr hr')
  | act a next => exact fun s'' hr' => h s'' (P.rely_trans hr hr')

/-- Any handler keeps a protocol that asks nothing of its task. -/
theorem Proc.wp_of_guar (hact : ∀ seen s a r, P.inv s → P.guar t seen s (s.acted t a r))
    (hcommit : ∀ seen s w, P.inv s → P.guar t seen s (s.commit t w)) (p : Proc ν ε ρ α) :
    p.wp S P t (fun _ _ _ => True) seen s := by
  induction p generalizing seen s with
  | pure a => trivial
  | throw e => trivial
  | read next ih => exact fun s' _ _ _ => ih _
  | tx body next ih =>
    exact fun s' _ hi => ⟨fun w _ _ => ⟨hcommit seen s' w hi, ih _⟩, fun e _ _ => ih _⟩
  | act a next ih => exact fun s' _ hi r _ _ => ⟨hact seen s' a r hi, ih _⟩

end Wp

/-! ## Soundness -/

section Sound

variable [DecidableEq κ] {S : System ν ε ρ μ} {P : Protocol ν ε ρ μ} {G : Guard ν ε ρ μ}

/-- Every handler of `S` keeps `P` in the runs that meet `G`. -/
structure System.Keeps (S : System ν ε ρ μ) (P : Protocol ν ε ρ μ) (G : Guard ν ε ρ μ) : Prop where
  start : ∀ s, S.start s → P.inv s
  assume : ∀ s i c job, G s i c → s.jobs i = some job → P.assume job.task job.seen s.shared c
  code : ∀ s t, S.spawn s t → P.inv s.shared →
    (S.code t).wp S P t (fun _ _ _ => True) [] s.shared

/-- What holds in every reachable state. -/
structure Protocol.Holds (P : Protocol ν ε ρ μ) (S : System ν ε ρ μ) (s : State ν ε ρ μ) :
    Prop where
  inv : P.inv s.shared
  jobs : ∀ i job, s.jobs i = some job →
    job.code.wp S P job.task (fun _ _ _ => True) job.seen s.shared

section Step

variable {s s' : State ν ε ρ μ} {i : ℕ} {c : Choice ν ε ρ μ}

/-- A step of a job changes the shared state as the job's task may. -/
theorem Protocol.Holds.guar (hkeeps : S.Keeps P G) (hs : P.Holds S s) (h : Step S s i c s')
    (hg : G s i c) :
    s'.shared = s.shared ∨ ∃ job, s.jobs i = some job ∧
      P.guar job.task job.seen s.shared s'.shared := by
  have ha := fun job => hkeeps.assume s i c job hg
  cases h with
  | spawn hj _ => exact .inl rfl
  | read hj => exact .inl rfl
  | commit hj he =>
    exact .inr ⟨_, hj, ((hs.jobs i _ hj s.shared (P.rely_refl _) hs.inv).1 _ he (ha _ hj)).1⟩
  | abort hj _ => exact .inl rfl
  | act hj hr =>
    exact .inr ⟨_, hj, (hs.jobs i _ hj s.shared (P.rely_refl _) hs.inv _ hr (ha _ hj)).1⟩
  | stop hj => exact .inl rfl

theorem Protocol.Holds.inv_rely (hkeeps : S.Keeps P G) (hs : P.Holds S s) (h : Step S s i c s')
    (hg : G s i c) : P.inv s'.shared ∧ P.rely s.shared s'.shared := by
  rcases hs.guar hkeeps h hg with heq | ⟨job, -, hguar⟩
  · rw [heq]
    exact ⟨hs.inv, P.rely_refl _⟩
  · exact ⟨P.guar_inv hs.inv hguar, P.guar_rely hs.inv hguar⟩

theorem Protocol.Holds.step (hkeeps : S.Keeps P G) (hs : P.Holds S s) (h : Step S s i c s')
    (hg : G s i c) : P.Holds S s' := by
  obtain ⟨hinv, hrely⟩ := hs.inv_rely hkeeps h hg
  have ha := fun job => hkeeps.assume s i c job hg
  -- a job that did not move only sees a step of another
  have still : ∀ j job, s.jobs j = some job →
      job.code.wp S P job.task (fun _ _ _ => True) job.seen s'.shared :=
    fun j job hj => Proc.wp_rely hrely (hs.jobs j job hj)
  refine ⟨hinv, fun j job hj => ?_⟩
  by_cases hji : j = i
  · subst hji
    cases h with
    | spawn hn hspawn =>
      rw [State.set_jobs_self] at hj
      cases hj
      exact hkeeps.code s _ hspawn hs.inv
    | read hjob =>
      rw [State.set_jobs_self] at hj
      cases hj
      exact hs.jobs j _ hjob s.shared (P.rely_refl _) hs.inv (ha _ hjob)
    | commit hjob he =>
      cases (State.set_jobs_self s j _).symm.trans hj
      exact ((hs.jobs j _ hjob s.shared (P.rely_refl _) hs.inv).1 _ he (ha _ hjob)).2
    | abort hjob he =>
      rw [State.set_jobs_self] at hj
      cases hj
      exact (hs.jobs j _ hjob s.shared (P.rely_refl _) hs.inv).2 _ he (ha _ hjob)
    | act hjob hr =>
      cases (State.set_jobs_self s j _).symm.trans hj
      exact (hs.jobs j _ hjob s.shared (P.rely_refl _) hs.inv _ hr (ha _ hjob)).2
    | stop hjob =>
      rw [State.set_jobs_self] at hj
      cases hj
  · exact still j job ((h.jobs_ne hji).symm.trans hj)

end Step

/-- **Soundness.**  Where every handler keeps `P`, every reachable state
satisfies its invariant, and every job still keeps it. -/
theorem Protocol.sound (hkeeps : S.Keeps P G) {s : State ν ε ρ μ} (h : Reach S G s) : P.Holds S s :=
  h.invariant (fun sh hstart => ⟨hkeeps.start sh hstart, by intro i job hj; cases hj⟩)
    fun _ _ _ _ hs hstep hg => hs.step hkeeps hstep hg

/-- What is known of a step of a job of `t`, besides what the protocol says:
the task is one that was started, the outside may answer so, and the commit
meets the guard. -/
structure System.Took (S : System ν ε ρ μ) (G : Guard ν ε ρ μ) (T : Shared ν ρ μ → μ → Prop) (t : μ)
    (s s' : Shared ν ρ μ) : Prop where
  task : T s t
  reply : ∀ a r, s' = s.acted t a r → S.reply s t a r
  guard : ∀ w, s' = s.commit t w → ∃ st i, st.shared = s ∧ G st i (.commit w)

/-- The reply of a step that performed an action is one that may be given. -/
theorem Step.reply_of_acted {s s' : State ν ε ρ μ} {i : ℕ} {c : Choice ν ε ρ μ}
    (h : Step S s i c s') {t : μ} {a : A} {r : ρ a} (hs : s'.shared = s.shared.acted t a r) :
    S.reply s.shared t a r := by
  have htrace := congrArg Shared.trace hs
  rcases h.shared_cases with heq | ⟨job, a', r', -, -, hr, hs'⟩ | ⟨job, w, -, -, hs'⟩
  · rw [heq] at htrace
    exact absurd htrace (by simp)
  · rw [hs'] at htrace
    obtain ⟨hevent, -⟩ := List.cons.inj htrace
    cases hevent
    exact hr
  · rw [hs'] at htrace
    cases htrace

theorem Step.guard_of_commit {s s' : State ν ε ρ μ} {i : ℕ} {c : Choice ν ε ρ μ} {t : μ}
    (h : Step S s i c s') (hg : G s i c) {w : Store ν} (hs : s'.shared = s.shared.commit t w) :
    G s i (.commit w) := by
  have htrace := congrArg Shared.trace hs
  rcases h.shared_cases with heq | ⟨job, a', r', -, -, hr, hs'⟩ | ⟨job, w', -, rfl, hs'⟩
  · rw [heq] at htrace
    exact absurd htrace (by simp)
  · rw [hs'] at htrace
    cases htrace
  · rw [hs'] at htrace
    obtain ⟨hevent, -⟩ := List.cons.inj htrace
    cases hevent
    exact hg

/-- A property `I` of the shared state holds in every run when the start states
have it and every guaranteed step keeps it.  `J` is what is known of a job and
the rows it last read, and `K` what is known of every reachable state. -/
theorem Protocol.invariant_of_known (hkeeps : S.Keeps P G) {K : Shared ν ρ μ → Prop}
    (known : ∀ s, Reach S G s → K s.shared) {J : Shared ν ρ μ → μ → Store ν → Prop}
    {I : Shared ν ρ μ → Prop} (spawned : ∀ s t, S.spawn s t → J s.shared t [])
    (stays : ∀ t seen s s', P.rely s s' → J s t seen → J s' t seen)
    (reads : ∀ t seen s, I s → J s t seen → J s t s.db) (start : ∀ s, S.start s → I s)
    (step : ∀ t seen s s', P.inv s → K s → K s' → S.Took G (fun s t => J s t seen) t s s' → I s →
      P.guar t seen s s' → I s')
    {s : State ν ε ρ μ} (h : Reach S G s) : I s.shared := by
  suffices Reach S G s ∧ (∀ i job, s.jobs i = some job → J s.shared job.task job.seen) ∧
      I s.shared from this.2.2
  refine h.invariant (I := fun s => Reach S G s ∧
    (∀ i job, s.jobs i = some job → J s.shared job.task job.seen) ∧ I s.shared)
    (fun sh hstart => ?_) ?_
  · refine ⟨.start hstart, fun i job hj => ?_, start sh hstart⟩
    cases hj
  rintro s i c s' ⟨hreach, hJ, hI⟩ hstep hg
  have hs := Protocol.sound hkeeps hreach
  refine ⟨hreach.step hstep hg, fun j job hj => ?_, ?_⟩
  · refine stays _ _ _ _ (hs.inv_rely hkeeps hstep hg).2 ?_
    by_cases hji : j = i
    · subst hji
      rcases hstep.task_of_jobs hj with ⟨job', hj', htask, hseen | hseen⟩ | ⟨hspawn, hseen⟩
      · rw [← htask, hseen]
        exact hJ j job' hj'
      · rw [← htask, hseen]
        exact reads _ _ _ hI (hJ j job' hj')
      · rw [hseen]
        exact spawned s _ hspawn
    · exact hJ j job ((hstep.jobs_ne hji).symm.trans hj)
  · rcases hs.guar hkeeps hstep hg with heq | ⟨job, hj, hguar⟩
    · rwa [heq]
    · refine step job.task job.seen _ _ hs.inv (known s hreach) (known s' (hreach.step hstep hg))
        ⟨hJ i job hj, fun a r hs' => ?_, fun w hs' => ?_⟩ hI hguar
      · exact hstep.reply_of_acted hs'
      · exact ⟨s, i, rfl, hstep.guard_of_commit hg hs'⟩

/-- The same where the rest is not known. -/
theorem Protocol.invariant_of_seen (hkeeps : S.Keeps P G) {J : Shared ν ρ μ → μ → Store ν → Prop}
    {I : Shared ν ρ μ → Prop} (spawned : ∀ s t, S.spawn s t → J s.shared t [])
    (stays : ∀ t seen s s', P.rely s s' → J s t seen → J s' t seen)
    (reads : ∀ t seen s, I s → J s t seen → J s t s.db) (start : ∀ s, S.start s → I s)
    (step : ∀ t seen s s', P.inv s → S.Took G (fun s t => J s t seen) t s s' → I s →
      P.guar t seen s s' → I s')
    {s : State ν ε ρ μ} (h : Reach S G s) : I s.shared :=
  Protocol.invariant_of_known hkeeps (K := fun _ => True) (fun _ _ => trivial) spawned stays reads
    start (fun t seen s s' hinv _ _ => step t seen s s' hinv) h

/-- The same where only the task is looked at. -/
theorem Protocol.invariant_of_took (hkeeps : S.Keeps P G) {T : Shared ν ρ μ → μ → Prop}
    (spawned : ∀ s t, S.spawn s t → T s.shared t)
    (stays : ∀ t s s', P.rely s s' → T s t → T s' t) {I : Shared ν ρ μ → Prop}
    (start : ∀ s, S.start s → I s)
    (step : ∀ t seen s s', P.inv s → S.Took G T t s s' → I s → P.guar t seen s s' → I s')
    {s : State ν ε ρ μ} (h : Reach S G s) : I s.shared :=
  Protocol.invariant_of_seen hkeeps (J := fun s t _ => T s t) spawned
    (fun t _ s s' hrely hT => stays t s s' hrely hT) (fun _ _ _ _ hT => hT) start step h

theorem Protocol.invariant (hkeeps : S.Keeps P G) {I : Shared ν ρ μ → Prop}
    (start : ∀ s, S.start s → I s)
    (step : ∀ t seen s s', P.inv s → I s → P.guar t seen s s' → I s')
    {s : State ν ε ρ μ} (h : Reach S G s) : I s.shared :=
  Protocol.invariant_of_took hkeeps (T := fun _ _ => True) (fun _ _ _ => trivial)
    (fun _ _ _ _ _ => trivial) start (fun t seen s s' hinv _ => step t seen s s' hinv) h

end Sound

end Concurrency
