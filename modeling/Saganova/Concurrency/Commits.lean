import Saganova.Concurrency.Executions

/-!
# Handlers that commit once

A handler may open a second transaction after its first was aborted, and still
commit one only (`Proc.OneCommit`): run alone from any state, it adds one commit
to the trace at most (`OneCommit.countP_run`).
-/

namespace Concurrency

variable {κ : Type} {ν : κ → Type} {ε A μ α β : Type} {ρ : A → Type}

namespace Proc

/-- No run of the handler opens a transaction after one that committed. -/
def OneCommit : Proc ν ε ρ α → Prop
  | .pure _ => True
  | .throw _ => True
  | .read next => ∀ db, (next db).OneCommit
  | .tx _ next => (next (.ok ())).ReadOnly ∧ ∀ e, (next (.error e)).OneCommit
  | .act _ next => ∀ r, (next r).OneCommit

section Rules

theorem OneTx.oneCommit {p : Proc ν ε ρ α} (hp : p.OneTx) : p.OneCommit := by
  induction p with
  | pure a => trivial
  | throw e => trivial
  | read next ih => exact fun db => ih db (hp db)
  | tx body next ih => exact ⟨hp _, fun e => ih _ (hp _).oneTx⟩
  | act a next ih => exact fun r => ih r (hp r)

theorem ReadOnly.oneCommit {p : Proc ν ε ρ α} (hp : p.ReadOnly) : p.OneCommit := hp.oneTx.oneCommit

/-- Reading first, and then a handler that commits once. -/
theorem ReadOnly.bind_oneCommit {p : Proc ν ε ρ α} {f : α → Proc ν ε ρ β} (hp : p.ReadOnly)
    (hf : ∀ a, (f a).OneCommit) : (p >>= f).OneCommit := by
  induction p with
  | pure a => exact hf a
  | throw e => trivial
  | read next ih => exact fun db => ih db (hp db)
  | tx body next ih => exact absurd hp id
  | act a next ih => exact fun r => ih r (hp r)

/-- A handler that commits once, and then only reading. -/
theorem OneCommit.bind {p : Proc ν ε ρ α} {f : α → Proc ν ε ρ β} (hp : p.OneCommit)
    (hf : ∀ a, (f a).ReadOnly) : (p >>= f).OneCommit := by
  induction p with
  | pure a => exact (hf a).oneCommit
  | throw e => trivial
  | read next ih => exact fun db => ih db (hp db)
  | tx body next ih => exact ⟨hp.1.bind hf, fun e => ih _ (hp.2 e)⟩
  | act a next ih => exact fun r => ih r (hp r)

/-- One transaction, and another one if that is aborted. -/
theorem oneCommit_retry (body : Tx ν ε Unit) {f : ε → Proc ν ε ρ Unit}
    (hf : ∀ e, (f e).OneCommit) :
    (MonadExcept.tryCatch (transaction body : Proc ν ε ρ Unit) f).OneCommit :=
  ⟨trivial, hf⟩

end Rules

end Proc

section Run

variable [DecidableEq κ]

def Event.isCommit : Event ν ρ μ → Bool
  | .committed _ _ => true
  | _ => false

variable (answer : ℕ → (a : A) → ρ a) (t : μ)

theorem Proc.ReadOnly.countP_run {p : Proc ν ε ρ α} (hp : p.ReadOnly) (s : Shared ν ρ μ) :
    (p.run answer t s).2.trace.countP Event.isCommit = s.trace.countP Event.isCommit := by
  induction p generalizing s with
  | pure a => rfl
  | throw e => rfl
  | read next ih => exact ih _ (hp _) s
  | act a next ih => exact ih _ (hp _) _
  | tx body next ih => exact absurd hp id

theorem Proc.OneCommit.countP_run {p : Proc ν ε ρ α} (hp : p.OneCommit) (s : Shared ν ρ μ) :
    (p.run answer t s).2.trace.countP Event.isCommit ≤ s.trace.countP Event.isCommit + 1 := by
  induction p generalizing s with
  | pure a => exact Nat.le_succ _
  | throw e => exact Nat.le_succ _
  | read next ih => exact ih _ (hp _) s
  | act a next ih => exact ih _ (hp _) _
  | tx body next ih =>
    cases hexec : body.exec s.db [] with
    | error e =>
      rw [run_tx_error _ _ _ hexec]
      exact ih _ (hp.2 e) s
    | ok r =>
      rw [run_tx_ok _ _ _ hexec, hp.1.countP_run, Shared.commit_trace, List.countP_cons]
      exact le_refl _

end Run

end Concurrency
