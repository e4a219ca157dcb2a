import Saganova.Concurrency.Transaction

/-!
# The statements of a transaction

`Tx.WritesOnly`: the keys that a body may write.  The rows at all others are as
they were (`Tx.WritesOnly.frame`).

`Tx.execFaulty`: a body of which any statement may fail.  Where none does it is
`Tx.exec` (`Tx.execFaulty_none`).
-/

namespace Concurrency

variable {κ : Type} {ν : κ → Type} {ε α β : Type}

namespace Tx

/-! ## The keys it writes -/

/-- Every run of the body writes at keys in `P` only. -/
def WritesOnly (P : κ → Prop) : Tx ν ε α → Prop
  | .pure _ => True
  | .throw _ => True
  | .lock _ next => ∀ r, (next r).WritesOnly P
  | .put k _ next => P k ∧ next.WritesOnly P

section WritesOnly

variable {P : κ → Prop}

theorem WritesOnly.bind {t : Tx ν ε α} {f : α → Tx ν ε β} (ht : t.WritesOnly P)
    (hf : ∀ a, (f a).WritesOnly P) : (t >>= f).WritesOnly P := by
  induction t with
  | pure a => exact hf a
  | throw e => trivial
  | lock k next ih => exact fun r => ih r (ht r)
  | put k row next ih => exact ⟨ht.1, ih ht.2⟩

theorem WritesOnly.mono {Q : κ → Prop} {t : Tx ν ε α} (ht : t.WritesOnly P) (h : ∀ k, P k → Q k) :
    t.WritesOnly Q := by
  induction t with
  | pure a => trivial
  | throw e => trivial
  | lock k next ih => exact fun r => ih r (ht r)
  | put k row next ih => exact ⟨h k ht.1, ih ht.2⟩

variable [DecidableEq κ]

theorem WritesOnly.frame {t : Tx ν ε α} (ht : t.WritesOnly P) {db db' : Store ν} {a : α}
    (h : Runs db t a db') {k : κ} (hk : ¬ P k) : Store.row db' k = Store.row db k := by
  induction t generalizing db with
  | pure b => rw [(runs_pure.mp h).2]
  | throw e => exact absurd h runs_throw
  | lock k' next ih => exact ih _ (ht _) (runs_lock.mp h)
  | put k' row next ih =>
    have hne : k ≠ k' := by
      rintro rfl
      exact hk ht.1
    rw [ih ht.2 (runs_put.mp h), Store.row_cons_ne _ _ hne]

end WritesOnly

/-! ## Its failing at any of them -/

section Faulty

variable [DecidableEq κ]

/-- Run a body over the committed rows `db`.  The statement number `m`, counted
from `n`, fails with the error `fault m`, if there is one. -/
def execFaulty (fault : ℕ → Option ε) (db : Store ν) :
    Tx ν ε α → ℕ → Store ν → Except ε (α × Store ν)
  | .pure a, _, w => .ok (a, w)
  | .throw e, _, _ => .error e
  | .lock k next, n, w =>
    match fault n with
    | some e => .error e
    | none => execFaulty fault db (next (Store.row (w ++ db) k)) (n + 1) w
  | .put k row next, n, w => execFaulty fault db next n (⟨k, row⟩ :: w)

theorem execFaulty_none (db : Store ν) (t : Tx ν ε α) (n : ℕ) (w : Store ν) :
    t.execFaulty (fun _ => none) db n w = t.exec db w := by
  induction t generalizing n w with
  | pure a => rfl
  | throw e => rfl
  | lock k next ih => exact ih _ (n + 1) w
  | put k row next ih => exact ih n _

end Faulty

end Tx

end Concurrency
