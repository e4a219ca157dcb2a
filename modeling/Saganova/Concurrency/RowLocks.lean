import Saganova.Concurrency.System

/-!
# Row locks

`Step` runs a transaction at once, at its commit.  Here its statements run one
at a time (`LockStep`): a statement takes the lock of its row, waits while
another open transaction holds it, reads the row as committed at that moment,
and keeps the lock to the end.  A transaction may abort between any two
statements, and a crash rolls it back.

`LockReach.atomic`: whatever the interleaving of statements, the rows and the
handlers are in a state that whole transactions reach.  `Reach.withLocks` is
the other direction.  So a property of the committed rows is proved of
`Reach` and holds of `LockReach`.
-/

namespace Concurrency

variable {κ : Type} {ν : κ → Type} {ε A μ : Type} {ρ : A → Type}

/-- A transaction under way: what is left of it, the locks it holds and the
rows it has written. -/
structure OpenTx (ν : κ → Type) (ε : Type) where
  rest : Tx ν ε Unit
  locks : List κ
  writes : Store ν

structure LockState (ν : κ → Type) (ε : Type) (ρ : A → Type) (μ : Type) where
  base : State ν ε ρ μ
  txns : ℕ → Option (OpenTx ν ε)

/-- Job `i` goes on with transaction `o` (`none`: it has ended). -/
def LockState.setTx (s : LockState ν ε ρ μ) (i : ℕ) (o : Option (OpenTx ν ε)) :
    LockState ν ε ρ μ :=
  { s with txns := Function.update s.txns i o }

/-- The lock of `k` is free for job `i`. -/
def LockState.Free (s : LockState ν ε ρ μ) (i : ℕ) (k : κ) : Prop :=
  ∀ j o, j ≠ i → s.txns j = some o → k ∉ o.locks

/-- Only job `i` is in a transaction. -/
def LockState.alone (base : State ν ε ρ μ) (i : ℕ) (o : OpenTx ν ε) : LockState ν ε ρ μ :=
  { base := base, txns := Function.update (fun _ => none) i (some o) }

section Alone

variable (base : State ν ε ρ μ) (i : ℕ)

@[simp] theorem LockState.alone_base (o : OpenTx ν ε) : (LockState.alone base i o).base = base := rfl

@[simp] theorem LockState.alone_txns (o : OpenTx ν ε) :
    (LockState.alone base i o).txns i = some o := by simp [alone]

theorem LockState.alone_setTx (o o' : OpenTx ν ε) :
    (LockState.alone base i o).setTx i (some o') = LockState.alone base i o' := by
  simp [alone, setTx]

theorem LockState.alone_end (o : OpenTx ν ε) :
    Function.update (LockState.alone base i o).txns i none = fun _ => none := by
  funext j
  by_cases hj : j = i
  · subst hj; simp
  · simp [alone, hj]

theorem LockState.alone_free (o : OpenTx ν ε) (k : κ) : (LockState.alone base i o).Free i k := by
  intro j o' hne hj
  simp [alone, hne] at hj

end Alone

/-- The choices that neither end a transaction nor stop a job. -/
def Choice.outside : Choice ν ε ρ μ → Prop
  | .spawn _ | .read | .act _ _ => True
  | .commit _ | .abort _ | .stop => False

variable [DecidableEq κ]

/-- One statement or one step of job `i`; the choice is the one of `Step` it
amounts to, if any. -/
inductive LockStep (S : System ν ε ρ μ) :
    LockState ν ε ρ μ → ℕ → Option (Choice ν ε ρ μ) → LockState ν ε ρ μ → Prop
  | begin {s : LockState ν ε ρ μ} {i : ℕ} {t : μ} {seen : Store ν} {body : Tx ν ε Unit}
      {next : Except ε Unit → Proc ν ε ρ Unit} :
      s.base.jobs i = some ⟨t, seen, .tx body next⟩ → s.txns i = none →
      LockStep S s i none (s.setTx i (some ⟨body, [], []⟩))
  | lock {s : LockState ν ε ρ μ} {i : ℕ} {k : κ} {next : Option (ν k) → Tx ν ε Unit}
      {locks : List κ} {writes : Store ν} :
      s.txns i = some ⟨.lock k next, locks, writes⟩ → s.Free i k →
      LockStep S s i none
        (s.setTx i (some ⟨next (Store.row (writes ++ s.base.shared.db) k), k :: locks, writes⟩))
  | put {s : LockState ν ε ρ μ} {i : ℕ} {k : κ} {row : ν k} {next : Tx ν ε Unit}
      {locks : List κ} {writes : Store ν} :
      s.txns i = some ⟨.put k row next, locks, writes⟩ → s.Free i k →
      LockStep S s i none (s.setTx i (some ⟨next, k :: locks, ⟨k, row⟩ :: writes⟩))
  | commit {s : LockState ν ε ρ μ} {i : ℕ} {t : μ} {seen writes : Store ν} {body : Tx ν ε Unit}
      {next : Except ε Unit → Proc ν ε ρ Unit} {locks : List κ} :
      s.base.jobs i = some ⟨t, seen, .tx body next⟩ → s.txns i = some ⟨.pure (), locks, writes⟩ →
      LockStep S s i (some (.commit writes))
        { base := { s.base.set i (some ⟨t, seen, next (.ok ())⟩) with
            shared := s.base.shared.commit t writes }
          txns := Function.update s.txns i none }
  | abort {s : LockState ν ε ρ μ} {i : ℕ} {t : μ} {seen : Store ν} {body : Tx ν ε Unit}
      {next : Except ε Unit → Proc ν ε ρ Unit} {o : OpenTx ν ε} {e : ε} :
      s.base.jobs i = some ⟨t, seen, .tx body next⟩ → s.txns i = some o →
      S.fault e ∨ o.rest = .throw e →
      LockStep S s i (some (.abort e))
        { base := s.base.set i (some ⟨t, seen, next (.error e)⟩)
          txns := Function.update s.txns i none }
  | stop {s : LockState ν ε ρ μ} {i : ℕ} {base' : State ν ε ρ μ} :
      Step S s.base i .stop base' →
      LockStep S s i (some .stop) { base := base', txns := Function.update s.txns i none }
  | outside {s : LockState ν ε ρ μ} {i : ℕ} {c : Choice ν ε ρ μ} {base' : State ν ε ρ μ} :
      Step S s.base i c base' → c.outside → LockStep S s i (some c) { s with base := base' }

/-- The states of the runs with row locks whose steps all meet `G`. -/
inductive LockReach (S : System ν ε ρ μ) (G : Guard ν ε ρ μ) : LockState ν ε ρ μ → Prop
  | start {s : Shared ν ρ μ} : S.start s → LockReach S G ⟨.idle s, fun _ => none⟩
  | step {s s' : LockState ν ε ρ μ} {i : ℕ} {c : Option (Choice ν ε ρ μ)} :
      LockReach S G s → LockStep S s i c s' → (∀ c', c = some c' → G s.base i c') →
      LockReach S G s'

/-! ## A transaction is as good as run at its commit -/

/-- The rest of `o` does over any rows that agree on its locks what the whole
`body` does. -/
def OpenTx.Resumes (o : OpenTx ν ε) (db : Store ν) (body : Tx ν ε Unit) : Prop :=
  ∀ db' : Store ν, (∀ k ∈ o.locks, Store.row db' k = Store.row db k) →
    body.exec db' [] = o.rest.exec db' o.writes

theorem OpenTx.resumes_begin (db : Store ν) (body : Tx ν ε Unit) :
    OpenTx.Resumes ⟨body, [], []⟩ db body := fun _ _ => rfl

theorem OpenTx.Resumes.lock {db : Store ν} {body : Tx ν ε Unit} {k : κ}
    {next : Option (ν k) → Tx ν ε Unit} {locks : List κ} {writes : Store ν}
    (h : OpenTx.Resumes ⟨.lock k next, locks, writes⟩ db body) :
    OpenTx.Resumes ⟨next (Store.row (writes ++ db) k), k :: locks, writes⟩ db body := by
  intro db' hdb'
  have hk : Store.row (writes ++ db') k = Store.row (writes ++ db) k := by
    rw [Store.row_append, Store.row_append, hdb' k List.mem_cons_self]
  calc body.exec db' []
      = (Tx.lock k next).exec db' writes := h db' fun k' hk' => hdb' k' (List.mem_cons_of_mem k hk')
    _ = (next (Store.row (writes ++ db) k)).exec db' writes := by rw [← hk]; rfl

theorem OpenTx.Resumes.put {db : Store ν} {body : Tx ν ε Unit} {k : κ} {row : ν k}
    {next : Tx ν ε Unit} {locks : List κ} {writes : Store ν}
    (h : OpenTx.Resumes ⟨.put k row next, locks, writes⟩ db body) :
    OpenTx.Resumes ⟨next, k :: locks, ⟨k, row⟩ :: writes⟩ db body :=
  fun db' hdb' => h db' fun k' hk' => hdb' k' (List.mem_cons_of_mem k hk')

/-- Commits of rows that `o` has not locked do not disturb it. -/
theorem OpenTx.Resumes.frame {o : OpenTx ν ε} {db writes : Store ν} {body : Tx ν ε Unit}
    (h : o.Resumes db body) (hw : ∀ k ∈ o.locks, Store.row writes k = none) :
    o.Resumes (writes ++ db) body := by
  intro db' hdb'
  refine h db' fun k hk => ?_
  rw [hdb' k hk, Store.row_append_of_none writes db k (hw k hk)]

/-- What holds of the open transactions of every reachable state. -/
structure LockInv (s : LockState ν ε ρ μ) : Prop where
  running : ∀ i o, s.txns i = some o → ∃ t seen body next,
    s.base.jobs i = some ⟨t, seen, .tx body next⟩ ∧ o.Resumes s.base.shared.db body
  disjoint : ∀ i j o o', i ≠ j → s.txns i = some o → s.txns j = some o' →
    ∀ k ∈ o.locks, k ∉ o'.locks
  written : ∀ i o, s.txns i = some o → ∀ k ∉ o.locks, Store.row o.writes k = none

section Invariant

variable {S : System ν ε ρ μ} {s s' : LockState ν ε ρ μ} {i : ℕ}

theorem LockInv.start (sh : Shared ν ρ μ) : LockInv (⟨.idle sh, fun _ => none⟩ : LockState ν ε ρ μ) where
  running := by intro i o h; cases h
  disjoint := by intro i j o o' _ h; cases h
  written := by intro i o h; cases h

/-- Job `i` ran one more statement of its transaction. -/
theorem LockInv.advance (hs : LockInv s) {o : OpenTx ν ε}
    (running : ∃ t seen body next, s.base.jobs i = some ⟨t, seen, .tx body next⟩ ∧
      o.Resumes s.base.shared.db body)
    (free : ∀ k ∈ o.locks, s.Free i k)
    (written : ∀ k ∉ o.locks, Store.row o.writes k = none) : LockInv (s.setTx i (some o)) where
  running := by
    intro j o' hj
    rcases update_eq_some hj with ⟨rfl, ho⟩ | ⟨-, hj⟩
    · cases ho; exact running
    · exact hs.running j o' hj
  disjoint := by
    intro j j' o₁ o₂ hne h₁ h₂ k hk
    rcases update_eq_some h₁ with ⟨rfl, ho₁⟩ | ⟨hj, hj₁⟩
    · cases ho₁
      rcases update_eq_some h₂ with ⟨rfl, -⟩ | ⟨hj', hj₂⟩
      · exact absurd rfl hne
      · exact free k hk j' o₂ hj' hj₂
    · rcases update_eq_some h₂ with ⟨rfl, ho₂⟩ | ⟨-, hj₂⟩
      · cases ho₂
        exact fun hk' => free k hk' j o₁ hj hj₁ hk
      · exact hs.disjoint j j' o₁ o₂ hne hj₁ hj₂ k hk
  written := by
    intro j o' hj
    rcases update_eq_some hj with ⟨rfl, ho⟩ | ⟨-, hj⟩
    · cases ho; exact written
    · exact hs.written j o' hj

/-- Job `i` left its transaction, or took a step outside one; it may have
committed rows that no other transaction has locked. -/
theorem LockInv.leave (hs : LockInv s) (writes : Store ν)
    (open_sub : ∀ j o, s'.txns j = some o → j ≠ i ∧ s.txns j = some o)
    (jobs : ∀ j, j ≠ i → s'.base.jobs j = s.base.jobs j)
    (db : s'.base.shared.db = writes ++ s.base.shared.db)
    (unlocked : ∀ j o, j ≠ i → s.txns j = some o → ∀ k ∈ o.locks, Store.row writes k = none) :
    LockInv s' where
  running := by
    intro j o hj
    obtain ⟨hne, hj⟩ := open_sub j o hj
    obtain ⟨t, seen, body, next, hjob, hres⟩ := hs.running j o hj
    refine ⟨t, seen, body, next, (jobs j hne).trans hjob, ?_⟩
    rw [db]
    exact hres.frame (unlocked j o hne hj)
  disjoint := fun j j' o o' hne h h' =>
    hs.disjoint j j' o o' hne (open_sub j o h).2 (open_sub j' o' h').2
  written := fun j o h => hs.written j o (open_sub j o h).2

/-- An open transaction's job is at that transaction. -/
theorem LockInv.txns_none (hs : LockInv s) {t : μ} {seen : Store ν} {code : Proc ν ε ρ Unit}
    (hj : s.base.jobs i = some ⟨t, seen, code⟩)
    (hcode : ∀ body next, code ≠ .tx body next) : s.txns i = none := by
  cases ho : s.txns i with
  | none => rfl
  | some o =>
    obtain ⟨t', seen', body, next, hj', -⟩ := hs.running i o ho
    rw [hj] at hj'
    cases hj'
    exact absurd rfl (hcode body next)

/-- A job that steps outside a transaction has none open. -/
theorem LockInv.txns_none_of_outside (hs : LockInv s) {c : Choice ν ε ρ μ} {base' : State ν ε ρ μ}
    (h : Step S s.base i c base') (hc : c.outside) : s.txns i = none := by
  cases h with
  | spawn hj _ =>
    cases ho : s.txns i with
    | none => rfl
    | some o =>
      obtain ⟨t', seen', body, next, hj', -⟩ := hs.running i o ho
      rw [hj] at hj'
      cases hj'
  | read hj => exact hs.txns_none hj fun _ _ => by simp
  | act hj _ => exact hs.txns_none hj fun _ _ => by simp
  | commit hj _ => exact absurd hc id
  | abort hj _ => exact absurd hc id
  | stop hj => exact absurd hc id

/-- Every statement and every step keeps the invariant. -/
theorem LockInv.step (hs : LockInv s) {c : Option (Choice ν ε ρ μ)} (h : LockStep S s i c s') :
    LockInv s' := by
  cases h with
  | begin hj ho =>
    exact hs.advance ⟨_, _, _, _, hj, OpenTx.resumes_begin _ _⟩ (by simp) (by simp)
  | @lock k next locks writes ho hfree =>
    obtain ⟨t, seen, body, next', hj, hres⟩ := hs.running i _ ho
    refine hs.advance ⟨t, seen, body, next', hj, hres.lock⟩ ?_ ?_
    · intro k' hk' j o hne hjo
      rcases List.mem_cons.mp hk' with rfl | hk'
      · exact hfree j o hne hjo
      · exact hs.disjoint i j _ o hne.symm ho hjo k' hk'
    · intro k' hk'
      exact hs.written i _ ho k' fun hmem => hk' (List.mem_cons_of_mem k hmem)
  | @put k row next locks writes ho hfree =>
    obtain ⟨t, seen, body, next', hj, hres⟩ := hs.running i _ ho
    refine hs.advance ⟨t, seen, body, next', hj, hres.put⟩ ?_ ?_
    · intro k' hk' j o hne hjo
      rcases List.mem_cons.mp hk' with rfl | hk'
      · exact hfree j o hne hjo
      · exact hs.disjoint i j _ o hne.symm ho hjo k' hk'
    · intro k' hk'
      have hne : k' ≠ k := fun h => hk' (h ▸ List.mem_cons_self)
      rw [Store.row_cons_ne _ _ hne]
      exact hs.written i _ ho k' fun hmem => hk' (List.mem_cons_of_mem k hmem)
  | @commit t seen writes body next locks hj ho =>
    refine hs.leave writes (fun j o h => ?_) (fun j hne => State.set_jobs_ne _ _ hne)
      rfl ?_
    · exact (update_eq_some h).resolve_left fun h' => by cases h'.2
    · intro j o hne hjo k hk
      exact hs.written i _ ho k fun hmem => hs.disjoint i j _ o hne.symm ho hjo k hmem hk
  | abort hj ho he =>
    refine hs.leave [] (fun j o h => ?_) (fun j hne => State.set_jobs_ne _ _ hne)
      rfl (by simp)
    exact (update_eq_some h).resolve_left fun h' => by cases h'.2
  | stop hstep =>
    refine hs.leave [] (fun j o h => ?_) (fun j hne => hstep.jobs_ne hne) ?_ (by simp)
    · exact (update_eq_some h).resolve_left fun h' => by cases h'.2
    · cases hstep; rfl
  | outside hstep hc =>
    refine hs.leave [] (fun j o h => ⟨?_, h⟩) (fun j hne => hstep.jobs_ne hne) ?_
      (by simp)
    · rintro rfl
      rw [hs.txns_none_of_outside hstep hc] at h
      cases h
    · cases hstep with
      | commit _ _ => exact absurd hc id
      | _ => rfl

/-- A statement changes no committed row and no handler; everything else is
the step of its choice. -/
theorem LockInv.atomic (hs : LockInv s) {c : Option (Choice ν ε ρ μ)} (h : LockStep S s i c s') :
    c = none ∧ s'.base = s.base ∨ ∃ c', c = some c' ∧ Step S s.base i c' s'.base := by
  cases h with
  | begin hj ho => exact .inl ⟨rfl, rfl⟩
  | lock ho hfree => exact .inl ⟨rfl, rfl⟩
  | put ho hfree => exact .inl ⟨rfl, rfl⟩
  | commit hj ho =>
    obtain ⟨t', seen', body', next', hj', hres⟩ := hs.running i _ ho
    rw [hj] at hj'
    cases hj'
    exact .inr ⟨_, rfl, .commit hj (hres _ fun k _ => rfl)⟩
  | @abort t seen body next o e hj ho he =>
    obtain ⟨t', seen', body', next', hj', hres⟩ := hs.running i _ ho
    rw [hj] at hj'
    cases hj'
    refine .inr ⟨_, rfl, .abort hj (he.imp id fun hrest => ?_)⟩
    rw [hres _ fun k _ => rfl, hrest]
    rfl
  | stop hstep => exact .inr ⟨_, rfl, hstep⟩
  | outside hstep hc => exact .inr ⟨_, rfl, hstep⟩

end Invariant

/-- **Row locks make transactions atomic.**  The committed rows and the
handlers of every run with row locks are those of a run of whole transactions
that meets the same guard. -/
theorem LockReach.atomic {S : System ν ε ρ μ} {G : Guard ν ε ρ μ} {s : LockState ν ε ρ μ}
    (h : LockReach S G s) : LockInv s ∧ Reach S G s.base := by
  induction h with
  | start h => exact ⟨.start _, .start h⟩
  | step _ hstep hg ih =>
    refine ⟨ih.1.step hstep, ?_⟩
    rcases ih.1.atomic hstep with ⟨-, hbase⟩ | ⟨c', rfl, hstep'⟩
    · rw [hbase]; exact ih.2
    · exact ih.2.step hstep' (hg c' rfl)

/-- From `s` to `s'`, the job at `i` is not started anew. -/
inductive LockDuring (S : System ν ε ρ μ) (i : ℕ) (s : LockState ν ε ρ μ) :
    LockState ν ε ρ μ → Prop
  | refl : LockDuring S i s s
  | step {s₁ s₂ : LockState ν ε ρ μ} {k : ℕ} {c : Option (Choice ν ε ρ μ)} :
      LockDuring S i s s₁ → LockStep S s₁ k c s₂ → (k = i → ∀ t, c ≠ some (.spawn t)) →
      LockDuring S i s s₂

theorem LockDuring.atomic {S : System ν ε ρ μ} {i : ℕ} {s s' : LockState ν ε ρ μ}
    (h : LockDuring S i s s') (hs : LockInv s) : LockInv s' ∧ During S i s.base s'.base := by
  induction h with
  | refl => exact ⟨hs, .refl⟩
  | step _ hstep hc ih =>
    refine ⟨ih.1.step hstep, ?_⟩
    rcases ih.1.atomic hstep with ⟨-, hbase⟩ | ⟨c', rfl, hstep'⟩
    · rw [hbase]
      exact ih.2
    · exact .step ih.2 hstep' fun hk t ht => hc hk t (congrArg some ht)

/-- Once the transaction of a job with one transaction has ended, nothing that
the job still does ends another or changes a committed row. -/
theorem LockReach.afterTx {S : System ν ε ρ μ} {G : Guard ν ε ρ μ} {T : μ → Prop}
    (hcode : ∀ t, T t → (S.code t).OneTx) {s s' s₁ s₂ : LockState ν ε ρ μ} {i : ℕ}
    {c c₁ : Option (Choice ν ε ρ μ)} (h : LockReach S G s)
    (hT : ∀ job, s.base.jobs i = some job → T job.task) (hstep : LockStep S s i c s')
    (hends : ∃ c', c = some c' ∧ c'.EndsTx) (hduring : LockDuring S i s' s₁)
    (hstep₁ : LockStep S s₁ i c₁ s₂) (hc₁ : ∀ t, c₁ ≠ some (.spawn t)) :
    (∀ c', c₁ = some c' → ¬ c'.EndsTx) ∧ s₂.base.shared.db = s₁.base.shared.db := by
  obtain ⟨hinv, hreach⟩ := h.atomic
  obtain ⟨c', rfl, hends⟩ := hends
  have hinv' := hinv.step hstep
  -- from here on the job only reads
  have honly : s'.base.OnlyReads i := by
    rcases hinv.atomic hstep with ⟨hnone, -⟩ | ⟨c'', hc'', hbase⟩
    · cases hnone
    · cases hc''
      exact hbase.onlyReads_of_oneTx hends fun job hjob => hreach.oneTx hcode i job hjob (hT job hjob)
  obtain ⟨hinv₁, hduring'⟩ := hduring.atomic hinv'
  have honly₁ := hduring'.onlyReads honly
  rcases hinv₁.atomic hstep₁ with ⟨rfl, hbase⟩ | ⟨c'', rfl, hbase⟩
  · exact ⟨nofun, by rw [hbase]⟩
  · have hreads := (hbase.onlyReads honly₁ fun t ht => hc₁ t (congrArg some ht)).1
    refine ⟨fun c' hc' => ?_, hbase.db_of_ne_commit fun w hw => hreads (.inl ⟨w, hw⟩)⟩
    cases hc'
    exact hreads

/-- Only a commit changes the committed rows. -/
theorem LockReach.db_of_ne_commit {S : System ν ε ρ μ} {G : Guard ν ε ρ μ}
    {s s' : LockState ν ε ρ μ} {i : ℕ} {c : Option (Choice ν ε ρ μ)} (h : LockReach S G s)
    (hstep : LockStep S s i c s') (hc : ∀ w, c ≠ some (.commit w)) :
    s'.base.shared.db = s.base.shared.db := by
  rcases h.atomic.1.atomic hstep with ⟨-, hbase⟩ | ⟨c', rfl, hbase⟩
  · rw [hbase]
  · exact hbase.db_of_ne_commit fun w hw => hc w (congrArg some hw)

/-! ## Every run of whole transactions is one with row locks -/

section Run

variable {S : System ν ε ρ μ} {G : Guard ν ε ρ μ} {base : State ν ε ρ μ} {i : ℕ}

/-- A transaction alone gets to its end. -/
theorem LockReach.runTx (rest : Tx ν ε Unit) (locks : List κ) (writes : Store ν)
    (h : LockReach S G (.alone base i ⟨rest, locks, writes⟩)) :
    (∀ w, rest.exec base.shared.db writes = .ok ((), w) →
      ∃ locks', LockReach S G (.alone base i ⟨.pure (), locks', w⟩)) ∧
    (∀ e, rest.exec base.shared.db writes = .error e →
      ∃ locks' w, LockReach S G (.alone base i ⟨.throw e, locks', w⟩)) := by
  induction rest generalizing locks writes with
  | pure a =>
    refine ⟨fun w hw => ⟨locks, ?_⟩, fun e he => nomatch he⟩
    cases hw
    exact h
  | throw e =>
    refine ⟨fun w hw => (nomatch hw), fun e' he => ⟨locks, writes, ?_⟩⟩
    cases he
    exact h
  | lock k next ih =>
    refine ih _ (k :: locks) writes ?_
    have hstep := LockStep.lock (S := S) (LockState.alone_txns base i _)
      (LockState.alone_free base i ⟨.lock k next, locks, writes⟩ k)
    rw [LockState.alone_setTx] at hstep
    exact h.step hstep (by simp)
  | put k row next ih =>
    refine ih (k :: locks) (⟨k, row⟩ :: writes) ?_
    have hstep := LockStep.put (S := S) (LockState.alone_txns base i _)
      (LockState.alone_free base i ⟨.put k row next, locks, writes⟩ k)
    rw [LockState.alone_setTx] at hstep
    exact h.step hstep (by simp)

/-- A job at a transaction can open it when no other is open. -/
theorem LockReach.begin {t : μ} {seen : Store ν} {body : Tx ν ε Unit}
    {next : Except ε Unit → Proc ν ε ρ Unit} (h : LockReach S G ⟨base, fun _ => none⟩)
    (hj : base.jobs i = some ⟨t, seen, .tx body next⟩) :
    LockReach S G (.alone base i ⟨body, [], []⟩) :=
  h.step (.begin hj rfl) (by simp)

end Run

theorem Reach.withLocks {S : System ν ε ρ μ} {G : Guard ν ε ρ μ} {s : State ν ε ρ μ}
    (h : Reach S G s) : LockReach S G ⟨s, fun _ => none⟩ := by
  induction h with
  | start h => exact .start h
  | @step s s' i c _ hstep hg ih =>
    have hg' : ∀ c', some c = some c' → G s i c' := by
      intro c' hc
      cases hc
      exact hg
    cases hstep with
    | spawn hj hs => exact ih.step (.outside (.spawn hj hs) trivial) hg'
    | read hj => exact ih.step (.outside (.read hj) trivial) hg'
    | act hj hr => exact ih.step (.outside (.act hj hr) trivial) hg'
    | stop hj =>
      have hend := ih.step (.stop (.stop hj)) hg'
      simpa using hend
    | commit hj he =>
      obtain ⟨locks, hend⟩ := ((ih.begin hj).runTx _ _ _).1 _ he
      have hcommit := hend.step (.commit hj (LockState.alone_txns _ _ _)) hg'
      rw [LockState.alone_end] at hcommit
      exact hcommit
    | @abort t seen body next e hj he =>
      rcases he with hfault | he
      · have habort := (ih.begin hj).step (.abort hj (LockState.alone_txns _ _ _) (.inl hfault)) hg'
        rw [LockState.alone_end] at habort
        exact habort
      · obtain ⟨locks, w, hend⟩ := ((ih.begin hj).runTx _ _ _).2 _ he
        have habort := hend.step (.abort hj (LockState.alone_txns _ _ _) (.inr rfl)) hg'
        rw [LockState.alone_end] at habort
        exact habort

end Concurrency
