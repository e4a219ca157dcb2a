import Saganova.Concurrency.RelyGuarantee

/-!
# Handlers run one at a time

A handler that runs to its end alone (`Proc.run`) takes the steps of `Step`
one after another: `Reach.run` says that sequential runs are runs of the
system, so what holds of every reachable state holds after each of them.

`Proc.After` is the postcondition of such a run, with a rule for each way to
build a handler.  A run of a handler that keeps a protocol keeps its invariant
(`Proc.run_keeps`).
-/

namespace Concurrency

variable {κ : Type} {ν : κ → Type} {ε A μ α β : Type} {ρ : A → Type} [DecidableEq κ]

section Run

variable (answer : ℕ → (a : A) → ρ a) (t : μ) (s : Shared ν ρ μ)

@[simp] theorem Proc.run_pure (a : α) :
    Proc.run answer t (Pure.pure a : Proc ν ε ρ α) s = (.ok a, s) := rfl

@[simp] theorem Proc.run_throw (e : ε) :
    Proc.run answer t (MonadExcept.throw e : Proc ν ε ρ α) s = (.error e, s) := rfl

@[simp] theorem Proc.run_read (next : Store ν → Proc ν ε ρ α) :
    Proc.run answer t (.read next) s = Proc.run answer t (next s.db) s := rfl

@[simp] theorem Proc.run_act (a : A) (next : ρ a → Proc ν ε ρ α) :
    Proc.run answer t (.act a next) s =
      Proc.run answer t (next (answer s.trace.length a))
        (s.acted t a (answer s.trace.length a)) := rfl

theorem Proc.run_tx_ok {body : Tx ν ε Unit} {next : Except ε Unit → Proc ν ε ρ α} {w : Store ν}
    (h : body.exec s.db [] = .ok ((), w)) :
    Proc.run answer t (.tx body next) s = Proc.run answer t (next (.ok ())) (s.commit t w) := by
  simp [run, h]

theorem Proc.run_tx_error {body : Tx ν ε Unit} {next : Except ε Unit → Proc ν ε ρ α} {e : ε}
    (h : body.exec s.db [] = .error e) :
    Proc.run answer t (.tx body next) s = Proc.run answer t (next (.error e)) s := by
  simp [run, h]

/-- A sequence runs its second part where the first ended, unless it failed. -/
theorem Proc.run_bind (p : Proc ν ε ρ α) (f : α → Proc ν ε ρ β) :
    Proc.run answer t (p >>= f) s =
      match Proc.run answer t p s with
      | (.ok a, s') => Proc.run answer t (f a) s'
      | (.error e, s') => (.error e, s') := by
  induction p generalizing s with
  | pure a => rfl
  | throw e => rfl
  | read next ih => exact ih _ s
  | act a next ih => exact ih _ _
  | tx body next ih =>
    cases h : body.exec s.db [] with
    | error e =>
      rw [run_tx_error _ _ _ h, ← ih]
      exact run_tx_error _ _ _ h
    | ok p =>
      rw [run_tx_ok _ _ _ h, ← ih]
      exact run_tx_ok _ _ _ h

/-- A caught error goes on with the handler where it was raised. -/
theorem Proc.run_tryCatch (p : Proc ν ε ρ α) (f : ε → Proc ν ε ρ α) :
    Proc.run answer t (MonadExcept.tryCatch p f) s =
      match Proc.run answer t p s with
      | (.ok a, s') => (.ok a, s')
      | (.error e, s') => Proc.run answer t (f e) s' := by
  induction p generalizing s with
  | pure a => rfl
  | throw e => rfl
  | read next ih => exact ih _ s
  | act a next ih => exact ih _ _
  | tx body next ih =>
    cases h : body.exec s.db [] with
    | error e =>
      rw [run_tx_error _ _ _ h, ← ih]
      exact run_tx_error _ _ _ h
    | ok p =>
      rw [run_tx_ok _ _ _ h, ← ih]
      exact run_tx_ok _ _ _ h

end Run

/-! ## Postconditions -/

/-- The handler, run alone from `s`, ends in `Q`. -/
def Proc.After (answer : ℕ → (a : A) → ρ a) (t : μ) (Q : Except ε α → Shared ν ρ μ → Prop)
    (p : Proc ν ε ρ α) (s : Shared ν ρ μ) : Prop :=
  Q (Proc.run answer t p s).1 (Proc.run answer t p s).2

section After

variable {answer : ℕ → (a : A) → ρ a} {t : μ} {s : Shared ν ρ μ}

theorem Proc.After.mono {Q Q' : Except ε α → Shared ν ρ μ → Prop} {p : Proc ν ε ρ α}
    (h : p.After answer t Q s) (hQ : ∀ r s', Q r s' → Q' r s') : p.After answer t Q' s := hQ _ _ h

theorem Proc.after_read {Q : Except ε α → Shared ν ρ μ → Prop} {next : Store ν → Proc ν ε ρ α}
    (h : (next s.db).After answer t Q s) : Proc.After answer t Q (.read next) s := h

theorem Proc.after_act {Q : Except ε α → Shared ν ρ μ → Prop} {a : A} {next : ρ a → Proc ν ε ρ α}
    (h : (next (answer s.trace.length a)).After answer t Q
      (s.acted t a (answer s.trace.length a))) : Proc.After answer t Q (.act a next) s := h

theorem Proc.after_tx {Q : Except ε α → Shared ν ρ μ → Prop} {body : Tx ν ε Unit}
    {next : Except ε Unit → Proc ν ε ρ α}
    (hok : ∀ w, body.exec s.db [] = .ok ((), w) → (next (.ok ())).After answer t Q (s.commit t w))
    (herror : ∀ e, body.exec s.db [] = .error e → (next (.error e)).After answer t Q s) :
    Proc.After answer t Q (.tx body next) s := by
  unfold After
  cases hexec : body.exec s.db [] with
  | ok r =>
    rw [run_tx_ok _ _ _ hexec]
    exact hok _ hexec
  | error e =>
    rw [run_tx_error _ _ _ hexec]
    exact herror _ hexec

theorem Proc.after_bind {Q : Except ε β → Shared ν ρ μ → Prop} (p : Proc ν ε ρ α)
    (f : α → Proc ν ε ρ β)
    (h : p.After answer t (fun r s' => match r with
      | .ok a => (f a).After answer t Q s'
      | .error e => Q (.error e) s') s) : (p >>= f).After answer t Q s := by
  unfold After at h ⊢
  rw [run_bind]
  generalize Proc.run answer t p s = result at h ⊢
  obtain ⟨r, s'⟩ := result
  cases r with
  | ok a => exact h
  | error e => exact h

theorem Proc.after_tryCatch {Q : Except ε α → Shared ν ρ μ → Prop} (p : Proc ν ε ρ α)
    (f : ε → Proc ν ε ρ α)
    (h : p.After answer t (fun r s' => match r with
      | .ok a => Q (.ok a) s'
      | .error e => (f e).After answer t Q s') s) :
    (MonadExcept.tryCatch p f).After answer t Q s := by
  unfold After at h ⊢
  rw [run_tryCatch]
  generalize Proc.run answer t p s = result at h ⊢
  obtain ⟨r, s'⟩ := result
  cases r with
  | ok a => exact h
  | error e => exact h

/-- A handler that keeps a protocol keeps its invariant, and every other
invariant of the guaranteed steps. -/
theorem Proc.run_keeps {S : System ν ε ρ μ} {P : Protocol ν ε ρ μ} {Q : Post ν ε ρ μ α}
    {I : Shared ν ρ μ → Prop} (hreply : ∀ s a, S.reply s t a (answer s.trace.length a))
    (hassume : ∀ seen s c, P.assume t seen s c)
    (hI : ∀ seen s s', P.inv s → I s → P.guar t seen s s' → I s') (p : Proc ν ε ρ α)
    {seen : Store ν} (hwp : p.wp S P t Q seen s) (hinv : P.inv s) (hs : I s) :
    p.After answer t (fun _ s' => P.inv s' ∧ P.rely s s' ∧ I s') s := by
  induction p generalizing seen s with
  | pure a => exact ⟨hinv, P.rely_refl s, hs⟩
  | throw e => exact ⟨hinv, P.rely_refl s, hs⟩
  | read next ih => exact ih _ (hwp s (P.rely_refl s) hinv (hassume _ _ _)) hinv hs
  | act a next ih =>
    obtain ⟨hguar, hnext⟩ := hwp s (P.rely_refl s) hinv _ (hreply s a) (hassume _ _ _)
    have hrest := ih _ hnext (P.guar_inv hinv hguar) (hI _ _ _ hinv hs hguar)
    exact ⟨hrest.1, P.rely_trans (P.guar_rely hinv hguar) hrest.2.1, hrest.2.2⟩
  | tx body next ih =>
    obtain ⟨hok, herror⟩ := hwp s (P.rely_refl s) hinv
    refine after_tx (fun w hexec => ?_) fun e hexec => ?_
    · obtain ⟨hguar, hnext⟩ := hok w hexec (hassume _ _ _)
      refine (ih _ hnext (P.guar_inv hinv hguar) (hI _ _ _ hinv hs hguar)).mono fun _ s' h => ?_
      exact ⟨h.1, P.rely_trans (P.guar_rely hinv hguar) h.2.1, h.2.2⟩
    · exact ih _ (herror e (.inr hexec) (hassume _ _ _)) hinv hs

end After

section Avoids

variable {bad : A → Prop}

/-- A count that only looks at actions in `bad` is not changed by the run. -/
theorem Proc.Avoids.countP_run {p : Proc ν ε ρ α} (hp : p.Avoids bad)
    {count : Event ν ρ μ → Bool} {t : μ} (hcommit : ∀ w, count (.committed t w) = false)
    (hact : ∀ a r, ¬ bad a → count (.acted t a r) = false)
    (answer : ℕ → (a : A) → ρ a) (s : Shared ν ρ μ) :
    (p.run answer t s).2.trace.countP count = s.trace.countP count := by
  induction p generalizing s with
  | pure a => rfl
  | throw e => rfl
  | read next ih => exact ih _ (hp _) s
  | act a next ih =>
    refine (ih _ (hp.2 _) _).trans ?_
    rw [Shared.acted_trace, List.countP_cons, hact _ _ hp.1]
    rfl
  | tx body next ih =>
    cases hexec : body.exec s.db [] with
    | error e =>
      rw [run_tx_error _ _ _ hexec]
      exact ih _ (hp _) s
    | ok r =>
      rw [run_tx_ok _ _ _ hexec]
      refine (ih _ (hp _) _).trans ?_
      rw [Shared.commit_trace, List.countP_cons, hcommit]
      rfl

/-- A run depends on the answers to the actions it may perform only. -/
theorem Proc.Avoids.run_congr {p : Proc ν ε ρ α} (hp : p.Avoids bad)
    {answer answer' : ℕ → (a : A) → ρ a} (h : ∀ k a, ¬ bad a → answer k a = answer' k a) (t : μ)
    (s : Shared ν ρ μ) : p.run answer t s = p.run answer' t s := by
  induction p generalizing s with
  | pure a => rfl
  | throw e => rfl
  | read next ih => exact ih _ (hp _) s
  | act a next ih =>
    rw [run_act, run_act, h _ _ hp.1]
    exact ih _ (hp.2 _) _
  | tx body next ih =>
    cases hexec : body.exec s.db [] with
    | error e =>
      rw [run_tx_error _ _ _ hexec, run_tx_error _ _ _ hexec]
      exact ih _ (hp _) s
    | ok r =>
      rw [run_tx_ok _ _ _ hexec, run_tx_ok _ _ _ hexec]
      exact ih _ (hp _) _

end Avoids

/-! ## Bursts -/

/-- Job `t` takes `n` steps, nothing else running: what is left of it, the rows
its last SELECT saw, and the shared state. -/
def Proc.burst (answer : ℕ → (a : A) → ρ a) (t : μ) :
    ℕ → Proc ν ε ρ Unit → Store ν → Shared ν ρ μ → Job ν ε ρ μ × Shared ν ρ μ
  | 0, p, seen, s => (⟨t, seen, p⟩, s)
  | _ + 1, .pure a, seen, s => (⟨t, seen, .pure a⟩, s)
  | _ + 1, .throw e, seen, s => (⟨t, seen, .throw e⟩, s)
  | n + 1, .read next, _, s => burst answer t n (next s.db) s.db s
  | n + 1, .tx body next, seen, s =>
    match body.exec s.db [] with
    | .ok (_, w) => burst answer t n (next (.ok ())) seen (s.commit t w)
    | .error e => burst answer t n (next (.error e)) seen s
  | n + 1, .act a next, seen, s =>
    burst answer t n (next (answer s.trace.length a)) seen (s.acted t a (answer s.trace.length a))

@[simp] theorem Proc.burst_task (answer : ℕ → (a : A) → ρ a) (t : μ) (n : ℕ) (p : Proc ν ε ρ Unit)
    (seen : Store ν) (s : Shared ν ρ μ) : (p.burst answer t n seen s).1.task = t := by
  induction p generalizing n seen s with
  | pure a => cases n <;> rfl
  | throw e => cases n <;> rfl
  | read next ih =>
    cases n with
    | zero => rfl
    | succ n => exact ih _ _ _ _
  | act a next ih =>
    cases n with
    | zero => rfl
    | succ n => exact ih _ _ _ _
  | tx body next ih =>
    cases n with
    | zero => rfl
    | succ n =>
      unfold burst
      split
      · exact ih _ _ _ _
      · exact ih _ _ _ _

/-- The burst's steps meet `G`, with the other jobs as in `st`. -/
def Proc.BurstMeets (G : Guard ν ε ρ μ) (answer : ℕ → (a : A) → ρ a) (t : μ) (st : State ν ε ρ μ)
    (i : ℕ) : ℕ → Proc ν ε ρ Unit → Store ν → Shared ν ρ μ → Prop
  | 0, _, _, _ => True
  | _ + 1, .pure _, _, _ => True
  | _ + 1, .throw _, _, _ => True
  | n + 1, .read next, seen, s =>
    G { st.set i (some ⟨t, seen, .read next⟩) with shared := s } i .read ∧
      BurstMeets G answer t st i n (next s.db) s.db s
  | n + 1, .tx body next, seen, s =>
    match body.exec s.db [] with
    | .ok (_, w) => G { st.set i (some ⟨t, seen, .tx body next⟩) with shared := s } i (.commit w) ∧
        BurstMeets G answer t st i n (next (.ok ())) seen (s.commit t w)
    | .error e => G { st.set i (some ⟨t, seen, .tx body next⟩) with shared := s } i (.abort e) ∧
        BurstMeets G answer t st i n (next (.error e)) seen s
  | n + 1, .act a next, seen, s =>
    G { st.set i (some ⟨t, seen, .act a next⟩) with shared := s } i
        (.act a (answer s.trace.length a)) ∧
      BurstMeets G answer t st i n (next (answer s.trace.length a)) seen
        (s.acted t a (answer s.trace.length a))

/-- The commits of a burst, each with the rows it was made over. -/
def Proc.commits (answer : ℕ → (a : A) → ρ a) (t : μ) :
    ℕ → Proc ν ε ρ Unit → Shared ν ρ μ → List (Store ν × Store ν)
  | 0, _, _ => []
  | _ + 1, .pure _, _ => []
  | _ + 1, .throw _, _ => []
  | n + 1, .read next, s => commits answer t n (next s.db) s
  | n + 1, .tx body next, s =>
    match body.exec s.db [] with
    | .ok (_, w) => (s.db, w) :: commits answer t n (next (.ok ())) (s.commit t w)
    | .error e => commits answer t n (next (.error e)) s
  | n + 1, .act a next, s =>
    commits answer t n (next (answer s.trace.length a)) (s.acted t a (answer s.trace.length a))

/-- A guard that the answers meet and that asks nothing of reads and aborts is
met by a burst whose commits meet it. -/
theorem Proc.burstMeets_of_commits {G : Guard ν ε ρ μ} {answer : ℕ → (a : A) → ρ a} {i : ℕ}
    {C : Store ν → Store ν → Prop}
    (hread : ∀ st, G st i .read) (hcommit : ∀ st w, C st.shared.db w → G st i (.commit w))
    (habort : ∀ st e, G st i (.abort e)) (hact : ∀ st k a, G st i (.act a (answer k a)))
    (t : μ) (st : State ν ε ρ μ) (n : ℕ) (p : Proc ν ε ρ Unit) (seen : Store ν)
    (s : Shared ν ρ μ) (h : ∀ c ∈ p.commits answer t n s, C c.1 c.2) :
    p.BurstMeets G answer t st i n seen s := by
  induction p generalizing n seen s with
  | pure a => cases n <;> trivial
  | throw e => cases n <;> trivial
  | read next ih =>
    cases n with
    | zero => trivial
    | succ n => exact ⟨hread _, ih _ _ _ _ h⟩
  | act a next ih =>
    cases n with
    | zero => trivial
    | succ n => exact ⟨hact _ _ a, ih _ _ _ _ h⟩
  | tx body next ih =>
    cases n with
    | zero => trivial
    | succ n =>
      unfold commits at h
      unfold BurstMeets
      split
      · rename_i hexec
        rw [hexec] at h
        obtain ⟨hfirst, hrest⟩ := List.forall_mem_cons.mp h
        exact ⟨hcommit _ _ hfirst, ih _ _ _ _ hrest⟩
      · rename_i hexec
        rw [hexec] at h
        exact ⟨habort _ _, ih _ _ _ _ h⟩

/-- A guard that the answers meet and that asks nothing of reads, commits and
aborts is met by every burst. -/
theorem Proc.burstMeets_of {G : Guard ν ε ρ μ} {answer : ℕ → (a : A) → ρ a} {i : ℕ}
    (hread : ∀ st, G st i .read) (hcommit : ∀ st w, G st i (.commit w))
    (habort : ∀ st e, G st i (.abort e)) (hact : ∀ st k a, G st i (.act a (answer k a)))
    (t : μ) (st : State ν ε ρ μ) (n : ℕ) (p : Proc ν ε ρ Unit) (seen : Store ν)
    (s : Shared ν ρ μ) : p.BurstMeets G answer t st i n seen s :=
  burstMeets_of_commits (C := fun _ _ => True) hread (fun st w _ => hcommit st w) habort hact t
    st n p seen s fun _ _ => trivial

theorem Proc.burstMeets_anything (answer : ℕ → (a : A) → ρ a) (t : μ) (st : State ν ε ρ μ) (i n : ℕ)
    (p : Proc ν ε ρ Unit) (seen : Store ν) (s : Shared ν ρ μ) :
    p.BurstMeets anything answer t st i n seen s :=
  burstMeets_of (fun _ => trivial) (fun _ _ => trivial) (fun _ _ => trivial) (fun _ _ _ => trivial)
    t st n p seen s

/-- While `I` holds the outside may answer so, and the steps of the task keep it. -/
structure System.MayAnswer (S : System ν ε ρ μ) (answer : ℕ → (a : A) → ρ a) (t : μ)
    (I : Shared ν ρ μ → Prop) : Prop where
  reply : ∀ s a, I s → S.reply s t a (answer s.trace.length a)
  acted : ∀ s a, I s → I (s.acted t a (answer s.trace.length a))
  commit : ∀ s w, I s → I (s.commit t w)

section Reach

variable {S : System ν ε ρ μ} {G : Guard ν ε ρ μ} (answer : ℕ → (a : A) → ρ a) {t : μ} {i : ℕ}
  {I : Shared ν ρ μ → Prop}

omit [DecidableEq κ] in
theorem System.mayAnswer_of_forall (hanswer : ∀ s a, S.reply s t a (answer s.trace.length a)) :
    S.MayAnswer answer t fun _ => True where
  reply s a _ := hanswer s a
  acted _ _ _ := trivial
  commit _ _ _ := trivial

theorem System.MayAnswer.run_keeps (hanswer : S.MayAnswer answer t I) (p : Proc ν ε ρ Unit)
    (s : Shared ν ρ μ) (hs : I s) : I (p.run answer t s).2 := by
  induction p generalizing s with
  | pure a => exact hs
  | throw e => exact hs
  | read next ih => exact ih _ s hs
  | act a next ih => exact ih _ _ (hanswer.acted s a hs)
  | tx body next ih =>
    cases hexec : body.exec s.db [] with
    | ok r =>
      rw [Proc.run_tx_ok _ _ _ hexec]
      exact ih _ _ (hanswer.commit s _ hs)
    | error e =>
      rw [Proc.run_tx_error _ _ _ hexec]
      exact ih _ s hs

/-- A burst is a run of steps. -/
theorem Reach.burst_of (hanswer : S.MayAnswer answer t I) {st : State ν ε ρ μ} (n : ℕ)
    (p : Proc ν ε ρ Unit) (seen : Store ν) (s : Shared ν ρ μ) (hs : I s)
    (h : Reach S G { st.set i (some ⟨t, seen, p⟩) with shared := s })
    (hG : p.BurstMeets G answer t st i n seen s) :
    Reach S G { st.set i (some (p.burst answer t n seen s).1) with
      shared := (p.burst answer t n seen s).2 } := by
  induction p generalizing n seen s with
  | pure a => cases n <;> exact h
  | throw e => cases n <;> exact h
  | read next ih =>
    cases n with
    | zero => exact h
    | succ n =>
      refine ih _ _ _ _ hs ?_ hG.2
      have hstep := h.step (.read (State.set_jobs_self st i _)) hG.1
      simpa [State.set] using hstep
  | act a next ih =>
    cases n with
    | zero => exact h
    | succ n =>
      refine ih _ _ _ _ (hanswer.acted s a hs) ?_ hG.2
      have hstep := h.step (.act (State.set_jobs_self st i _) (hanswer.reply s a hs)) hG.1
      simpa [State.set] using hstep
  | tx body next ih =>
    cases n with
    | zero => exact h
    | succ n =>
      unfold Proc.BurstMeets at hG
      unfold Proc.burst
      cases he : body.exec s.db [] with
      | ok r =>
        rw [he] at hG
        refine ih _ _ _ _ (hanswer.commit s _ hs) ?_ hG.2
        have hstep := h.step (.commit (State.set_jobs_self st i _) he) hG.1
        simpa [State.set] using hstep
      | error e =>
        rw [he] at hG
        refine ih _ _ _ _ hs ?_ hG.2
        have hstep := h.step (.abort (State.set_jobs_self st i _) (.inr he)) hG.1
        simpa [State.set] using hstep

/-- The same where the outside may answer so in every state. -/
theorem Reach.burst (hanswer : ∀ s a, S.reply s t a (answer s.trace.length a))
    {st : State ν ε ρ μ} (n : ℕ) (p : Proc ν ε ρ Unit) (seen : Store ν) (s : Shared ν ρ μ)
    (h : Reach S G { st.set i (some ⟨t, seen, p⟩) with shared := s })
    (hG : p.BurstMeets G answer t st i n seen s) :
    Reach S G { st.set i (some (p.burst answer t n seen s).1) with
      shared := (p.burst answer t n seen s).2 } :=
  Reach.burst_of answer (System.mayAnswer_of_forall answer hanswer) n p seen s trivial h hG

end Reach

/-- Job `i`, if there is one, takes `n` steps. -/
def State.resume (answer : ℕ → (a : A) → ρ a) (i n : ℕ) (s : State ν ε ρ μ) : State ν ε ρ μ :=
  match s.jobs i with
  | none => s
  | some job =>
    { s.set i (some (job.code.burst answer job.task n job.seen s.shared).1) with
      shared := (job.code.burst answer job.task n job.seen s.shared).2 }

theorem Reach.resume {S : System ν ε ρ μ} {s : State ν ε ρ μ} (h : Reach S anything s)
    (answer : ℕ → (a : A) → ρ a) (hanswer : ∀ t s a, S.reply s t a (answer s.trace.length a))
    (i n : ℕ) : Reach S anything (s.resume answer i n) := by
  unfold State.resume
  cases hj : s.jobs i with
  | none => exact h
  | some job =>
    refine Reach.burst answer (hanswer job.task) n job.code job.seen s.shared ?_
      (Proc.burstMeets_anything _ _ _ _ _ _ _ _)
    have hsame : s.set i (some job) = s := by
      simp only [State.set, ← hj, Function.update_eq_self]
    exact (congrArg (Reach S anything) hsame).mpr h

/-- A handler ends after finitely many steps. -/
theorem Proc.run_eq_burst (answer : ℕ → (a : A) → ρ a) (t : μ) (p : Proc ν ε ρ Unit)
    (seen : Store ν) (s : Shared ν ρ μ) :
    ∃ n, (p.burst answer t n seen s).2 = (p.run answer t s).2 := by
  induction p generalizing seen s with
  | pure a => exact ⟨0, rfl⟩
  | throw e => exact ⟨0, rfl⟩
  | read next ih =>
    obtain ⟨n, h⟩ := ih s.db s.db s
    exact ⟨n + 1, h⟩
  | act a next ih =>
    obtain ⟨n, h⟩ := ih (answer s.trace.length a) seen (s.acted t a (answer s.trace.length a))
    exact ⟨n + 1, h⟩
  | tx body next ih =>
    cases he : body.exec s.db [] with
    | ok r =>
      obtain ⟨n, h⟩ := ih (.ok ()) seen (s.commit t r.2)
      refine ⟨n + 1, ?_⟩
      rw [run_tx_ok _ _ _ he, ← h]
      simp [burst, he]
    | error e =>
      obtain ⟨n, h⟩ := ih (.error e) seen s
      refine ⟨n + 1, ?_⟩
      rw [run_tx_error _ _ _ he, ← h]
      simp [burst, he]

section Crash

variable {S : System ν ε ρ μ} {answer : ℕ → (a : A) → ρ a} {t : μ} {s : Shared ν ρ μ}
  {I : Shared ν ρ μ → Prop}

/-- A handler started where nothing else runs may crash after `n` steps. -/
theorem Reach.crash_of (h : Reach S anything (.idle s)) (hspawn : S.spawn (.idle s) t)
    (hanswer : S.MayAnswer answer t I) (hs : I s) (n : ℕ) :
    Reach S anything (.idle ((S.code t).burst answer t n [] s).2) := by
  have hend := Reach.burst_of answer hanswer n (S.code t) [] s hs
    (h.step (.spawn (i := 0) rfl hspawn) trivial) (Proc.burstMeets_anything _ _ _ _ _ _ _ _)
  have hjob : ((State.idle s).set 0 (some (Proc.burst answer t n (S.code t) [] s).1)).jobs 0 =
      some (Proc.burst answer t n (S.code t) [] s).1 := State.set_jobs_self _ 0 _
  have hstop := hend.step (.stop (i := 0) hjob) trivial
  simpa [State.set, State.idle] using hstop

theorem Reach.crash (h : Reach S anything (.idle s)) (hspawn : S.spawn (.idle s) t)
    (hanswer : ∀ s a, S.reply s t a (answer s.trace.length a)) (n : ℕ) :
    Reach S anything (.idle ((S.code t).burst answer t n [] s).2) :=
  h.crash_of hspawn (System.mayAnswer_of_forall answer hanswer) trivial n

/-- **Sequential runs are runs.**  After a handler has run alone from a
reachable state the state is reachable. -/
theorem Reach.run_of (h : Reach S anything (.idle s)) (hspawn : S.spawn (.idle s) t)
    (hanswer : S.MayAnswer answer t I) (hs : I s) :
    Reach S anything (.idle ((S.code t).run answer t s).2) := by
  obtain ⟨n, hn⟩ := Proc.run_eq_burst answer t (S.code t) [] s
  rw [← hn]
  exact h.crash_of hspawn hanswer hs n

theorem Reach.run (h : Reach S anything (.idle s)) (hspawn : S.spawn (.idle s) t)
    (hanswer : ∀ s a, S.reply s t a (answer s.trace.length a)) :
    Reach S anything (.idle ((S.code t).run answer t s).2) :=
  h.run_of hspawn (System.mayAnswer_of_forall answer hanswer) trivial

end Crash

/-- The handlers of `ts` run one after another. -/
def System.runs (S : System ν ε ρ μ) (answer : ℕ → (a : A) → ρ a) :
    List μ → Shared ν ρ μ → Shared ν ρ μ
  | [], s => s
  | t :: ts, s => S.runs answer ts ((S.code t).run answer t s).2

/-- It does not depend on which tasks may be started, or on what else may happen. -/
theorem System.runs_congr {S S' : System ν ε ρ μ} {answer : ℕ → (a : A) → ρ a}
    (hcode : S.code = S'.code) (ts : List μ) (s : Shared ν ρ μ) :
    S.runs answer ts s = S'.runs answer ts s := by
  induction ts generalizing s with
  | nil => rfl
  | cons t ts ih =>
    unfold runs
    rw [ih, hcode]

/-- Each of them may be started when its turn comes. -/
def System.MayStart (S : System ν ε ρ μ) (answer : ℕ → (a : A) → ρ a) :
    List μ → Shared ν ρ μ → Prop
  | [], _ => True
  | t :: ts, s => S.spawn (.idle s) t ∧ S.MayStart answer ts ((S.code t).run answer t s).2

theorem Reach.runs_of {S : System ν ε ρ μ} {answer : ℕ → (a : A) → ρ a}
    {I : Shared ν ρ μ → Prop} (ts : List μ) {s : Shared ν ρ μ} (h : Reach S anything (.idle s))
    (hstart : S.MayStart answer ts s) (hanswer : ∀ t ∈ ts, S.MayAnswer answer t I) (hs : I s) :
    Reach S anything (.idle (S.runs answer ts s)) := by
  induction ts generalizing s with
  | nil => exact h
  | cons t ts ih =>
    obtain ⟨hspawn, hrest⟩ := hstart
    have ht := hanswer t List.mem_cons_self
    exact ih (h.run_of hspawn ht hs) hrest (fun t ht => hanswer t (List.mem_cons_of_mem _ ht))
      (ht.run_keeps answer _ s hs)

theorem System.mayStart_of_forall {S : System ν ε ρ μ} (answer : ℕ → (a : A) → ρ a) (ts : List μ)
    (s : Shared ν ρ μ) (hspawn : ∀ s, ∀ t ∈ ts, S.spawn (.idle s) t) : S.MayStart answer ts s := by
  induction ts generalizing s with
  | nil => trivial
  | cons t ts ih =>
    exact ⟨hspawn s t List.mem_cons_self, ih _ fun s t ht => hspawn s t (List.mem_cons_of_mem _ ht)⟩

theorem Reach.runs {S : System ν ε ρ μ} {answer : ℕ → (a : A) → ρ a} (ts : List μ)
    {s : Shared ν ρ μ} (h : Reach S anything (.idle s))
    (hspawn : ∀ s, ∀ t ∈ ts, S.spawn (.idle s) t)
    (hanswer : ∀ s, ∀ t ∈ ts, ∀ a, S.reply s t a (answer s.trace.length a)) :
    Reach S anything (.idle (S.runs answer ts s)) :=
  h.runs_of ts (System.mayStart_of_forall answer ts s hspawn)
    (fun t ht => System.mayAnswer_of_forall answer fun s => hanswer s t ht) trivial

end Concurrency
