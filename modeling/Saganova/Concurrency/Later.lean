import Mathlib.Logic.Relation
import Saganova.Concurrency.RelyGuarantee
import Saganova.Concurrency.RowLocks

/-!
# Two moments of one run

`LockLater S G s s'`: a run whose steps all meet `G` goes from `s` on to `s'`.
Over any number of steps the shared state changes as every handler relies on
(`Protocol.rely_of_later`), so what is read at two moments of a run can be
compared.
-/

namespace Concurrency

variable {κ A : Type} {ν : κ → Type} {ε : Type} {ρ : A → Type} {μ : Type} [DecidableEq κ]
  {S : System ν ε ρ μ} {G : Guard ν ε ρ μ} {s s' : LockState ν ε ρ μ}

/-- From `s`, the run goes on to `s'`. -/
def LockLater (S : System ν ε ρ μ) (G : Guard ν ε ρ μ) :
    LockState ν ε ρ μ → LockState ν ε ρ μ → Prop :=
  Relation.ReflTransGen fun s s' => ∃ i c, LockStep S s i c s' ∧ ∀ c', c = some c' → G s.base i c'

theorem LockReach.later (h : LockReach S G s) (hlater : LockLater S G s s') : LockReach S G s' := by
  induction hlater with
  | refl => exact h
  | tail _ hstep ih =>
    obtain ⟨i, c, hstep, hg⟩ := hstep
    exact ih.step hstep hg

theorem Protocol.rely_of_later {P : Protocol ν ε ρ μ} (hkeeps : S.Keeps P G) (h : LockReach S G s)
    (hlater : LockLater S G s s') : P.rely s.base.shared s'.base.shared := by
  induction hlater with
  | refl => exact P.rely_refl _
  | @tail s₁ s₂ hlater hstep ih =>
    obtain ⟨i, c, hstep, hg⟩ := hstep
    obtain ⟨hinv, hreach⟩ := (h.later hlater).atomic
    obtain ⟨-, hbase⟩ | ⟨c', rfl, hstep'⟩ := hinv.atomic hstep
    · rw [hbase]
      exact ih
    · exact P.rely_trans ih ((Protocol.sound hkeeps hreach).inv_rely hkeeps hstep' (hg c' rfl)).2

end Concurrency
