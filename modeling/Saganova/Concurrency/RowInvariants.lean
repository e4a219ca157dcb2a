import Saganova.Concurrency.System

/-!
# Rows that satisfy a predicate

`t.Respects K P`: as long as the rows it reads satisfy `P`, a body names keys
in `K` only and writes rows that satisfy `P`.  Committed rows of which all
satisfy `P` go on doing so (`Tx.Respects.exec`).

`p.Respects K P answer Q` says it of the transactions of a handler, whose result
satisfies `Q`, for the answers that its actions get.  Where every handler does,
the rows of every run satisfy `P` (`Reach.all`).
-/

namespace Concurrency

variable {κ : Type} {ν : κ → Type} {ε A α β : Type} {ρ : A → Type}
  {K : κ → Prop} {P : (k : κ) → ν k → Prop}

/-- Every row satisfies `P`. -/
def Store.All [DecidableEq κ] (P : (k : κ) → ν k → Prop) (db : Store ν) : Prop :=
  ∀ k row, Store.row db k = some row → P k row

theorem Store.All.cons [DecidableEq κ] {db : Store ν} (h : Store.All P db) {k : κ} {row : ν k}
    (hrow : P k row) : Store.All P (⟨k, row⟩ :: db) := by
  intro k' row' hrow'
  by_cases hk : k' = k
  · subst hk
    rw [Store.row_cons_self] at hrow'
    cases hrow'
    exact hrow
  · rw [Store.row_cons_ne _ _ hk] at hrow'
    exact h k' row' hrow'

/-! ## Transactions -/

def Tx.Respects (K : κ → Prop) (P : (k : κ) → ν k → Prop) : Tx ν ε α → Prop
  | .pure _ => True
  | .throw _ => True
  | .lock k next => K k ∧ ∀ r, (∀ row, r = some row → P k row) → (next r).Respects K P
  | .put k row next => K k ∧ P k row ∧ next.Respects K P

theorem Tx.Respects.bind {t : Tx ν ε α} {f : α → Tx ν ε β} (ht : t.Respects K P)
    (hf : ∀ a, (f a).Respects K P) : (t >>= f).Respects K P := by
  induction t with
  | pure a => exact hf a
  | throw e => trivial
  | lock k next ih => exact ⟨ht.1, fun r hr => ih r (ht.2 r hr)⟩
  | put k row next ih => exact ⟨ht.1, ht.2.1, ih ht.2.2⟩

theorem Tx.Respects.mapError {g : ε → ε} {t : Tx ν ε α} (ht : t.Respects K P) :
    (t.mapError g).Respects K P := by
  induction t with
  | pure a => trivial
  | throw e => trivial
  | lock k next ih => exact ⟨ht.1, fun r hr => ih r (ht.2 r hr)⟩
  | put k row next ih => exact ⟨ht.1, ht.2.1, ih ht.2.2⟩

/-- What the body has written satisfies `P` too. -/
theorem Tx.Respects.exec [DecidableEq κ] {t : Tx ν ε α} (ht : t.Respects K P) {db w w' : Store ν}
    {a : α} (hdb : Store.All P (w ++ db)) (h : t.exec db w = .ok (a, w')) :
    Store.All P (w' ++ db) := by
  induction t generalizing w with
  | pure b =>
    cases h
    exact hdb
  | throw e => cases h
  | lock k next ih => exact ih _ (ht.2 _ (hdb k)) hdb h
  | put k row next ih => exact ih ht.2.2 (hdb.cons ht.2.1) h

/-! ## Handlers -/

variable [DecidableEq κ] {answer : (a : A) → ρ a → Prop}

def Proc.Respects (K : κ → Prop) (P : (k : κ) → ν k → Prop) (answer : (a : A) → ρ a → Prop)
    (Q : α → Prop) : Proc ν ε ρ α → Prop
  | .pure a => Q a
  | .throw _ => True
  | .read next => ∀ db, Store.All P db → (next db).Respects K P answer Q
  | .tx body next => body.Respects K P ∧ ∀ r, (next r).Respects K P answer Q
  | .act a next => ∀ r, answer a r → (next r).Respects K P answer Q

theorem Proc.Respects.bind {Q : α → Prop} {R : β → Prop} {p : Proc ν ε ρ α} {f : α → Proc ν ε ρ β}
    (hp : p.Respects K P answer Q) (hf : ∀ a, Q a → (f a).Respects K P answer R) :
    (p >>= f).Respects K P answer R := by
  induction p with
  | pure a => exact hf a hp
  | throw e => trivial
  | read next ih => exact fun db hdb => ih db (hp db hdb)
  | tx body next ih => exact ⟨hp.1, fun r => ih r (hp.2 r)⟩
  | act a next ih => exact fun r hr => ih r (hp r hr)

theorem Proc.Respects.tryCatch {Q : α → Prop} {p : Proc ν ε ρ α} {f : ε → Proc ν ε ρ α}
    (hp : p.Respects K P answer Q) (hf : ∀ e, (f e).Respects K P answer Q) :
    (MonadExcept.tryCatch p f).Respects K P answer Q := by
  induction p with
  | pure a => exact hp
  | throw e => exact hf e
  | read next ih => exact fun db hdb => ih db (hp db hdb)
  | tx body next ih => exact ⟨hp.1, fun r => ih r (hp.2 r)⟩
  | act a next ih => exact fun r hr => ih r (hp r hr)

theorem Proc.respects_ofExcept {Q : α → Prop} {r : Except ε α} (h : ∀ a, r = .ok a → Q a) :
    (Proc.ofExcept r : Proc ν ε ρ α).Respects K P answer Q := by
  cases r with
  | ok a => exact h a rfl
  | error e => trivial

theorem Proc.respects_transaction {body : Tx ν ε Unit} (h : body.Respects K P) :
    (Proc.transaction body : Proc ν ε ρ Unit).Respects K P answer fun _ => True :=
  ⟨h, fun _ => Proc.respects_ofExcept fun _ _ => trivial⟩

/-! ## Runs -/

section Run

variable {μ : Type} {S : System ν ε ρ μ} {G : Guard ν ε ρ μ} {s : State ν ε ρ μ}

/-- The rows of every run satisfy `P`. -/
theorem Reach.all (hstart : ∀ s, S.start s → Store.All P s.db)
    (hcode : ∀ s t, S.spawn s t → (S.code t).Respects K P answer fun _ => True)
    (hreply : ∀ s t a r, S.reply s t a r → answer a r) (h : Reach S G s) :
    Store.All P s.shared.db := by
  suffices Store.All P s.shared.db ∧ ∀ i job, s.jobs i = some job →
      job.code.Respects K P answer fun _ => True from this.1
  refine h.invariant (I := fun s => Store.All P s.shared.db ∧ ∀ i job, s.jobs i = some job →
    job.code.Respects K P answer fun _ => True) (fun s hs => ⟨hstart s hs, nofun⟩) ?_
  rintro s i c s' ⟨hdb, hjobs⟩ hstep -
  have hothers : ∀ k job, k ≠ i → s'.jobs k = some job →
      job.code.Respects K P answer fun _ => True :=
    fun k job hk hj => hjobs k job ((hstep.jobs_ne hk).symm.trans hj)
  suffices Store.All P s'.shared.db ∧ ∀ job, s'.jobs i = some job →
      job.code.Respects K P answer fun _ => True by
    refine ⟨this.1, fun k job hj => ?_⟩
    by_cases hk : k = i
    · exact this.2 job (hk ▸ hj)
    · exact hothers k job hk hj
  cases hstep with
  | spawn _ hspawn =>
    refine ⟨hdb, fun job hj => ?_⟩
    cases (State.set_jobs_self s i _).symm.trans hj
    exact hcode _ _ hspawn
  | read hjob =>
    refine ⟨hdb, fun job hj => ?_⟩
    cases (State.set_jobs_self s i _).symm.trans hj
    exact hjobs i _ hjob _ hdb
  | commit hjob hexec =>
    refine ⟨(hjobs i _ hjob).1.exec (w := []) hdb hexec, fun job hj => ?_⟩
    cases (State.set_jobs_self s i _).symm.trans hj
    exact (hjobs i _ hjob).2 _
  | abort hjob _ =>
    refine ⟨hdb, fun job hj => ?_⟩
    cases (State.set_jobs_self s i _).symm.trans hj
    exact (hjobs i _ hjob).2 _
  | act hjob hr =>
    refine ⟨hdb, fun job hj => ?_⟩
    cases (State.set_jobs_self s i _).symm.trans hj
    exact hjobs i _ hjob _ (hreply _ _ _ _ hr)
  | stop _ =>
    refine ⟨hdb, fun job hj => ?_⟩
    cases (State.set_jobs_self s i _).symm.trans hj

end Run

end Concurrency
