import Mathlib.Data.List.Sigma

/-!
# Tables and transactions

A `Store` is the contents of every table, newest write first: a key names one
row (or one entry of a unique index), and `ν k` is what the row at `k` holds.
A `Tx` is the body of a database transaction as a tree of statements:

* `lock k next`: take the row lock of `k` and read the row;
* `put k row next`: write the row at `k` (which takes its lock as well);
* `throw e`: abort.

`Tx.exec db t w` runs a body at once over the committed rows `db`, with the
transaction's own writes `w` in front of them.  It is the meaning a body has
when nothing else runs; `RowLocks` shows that it is also its meaning at commit
time under any interleaving.
-/

namespace Concurrency

variable {κ : Type} {ν : κ → Type} {ε α β : Type}

/-- The rows of all tables, newest write first. -/
abbrev Store (ν : κ → Type) := List (Sigma ν)

section Rows

variable [DecidableEq κ]

/-- The row at key `k`. -/
def Store.row (db : Store ν) (k : κ) : Option (ν k) := db.dlookup k

@[simp] theorem Store.row_nil (k : κ) : Store.row ([] : Store ν) k = none := rfl

@[simp] theorem Store.row_cons_self (db : Store ν) (k : κ) (v : ν k) :
    Store.row (⟨k, v⟩ :: db) k = some v :=
  List.dlookup_cons_eq db k v

@[simp] theorem Store.row_cons_ne (db : Store ν) {k k' : κ} (v : ν k') (h : k ≠ k') :
    Store.row (⟨k', v⟩ :: db) k = Store.row db k :=
  List.dlookup_cons_ne db ⟨k', v⟩ h

theorem Store.row_append (w db : Store ν) (k : κ) :
    Store.row (w ++ db) k = (Store.row w k).or (Store.row db k) :=
  List.dlookup_append w db k

theorem Store.row_append_of_none (w db : Store ν) (k : κ) (h : Store.row w k = none) :
    Store.row (w ++ db) k = Store.row db k := by
  rw [Store.row_append, h, Option.none_or]

/-- A write to a free key leaves the rows that are there. -/
theorem Store.row_cons_of_free {db : Store ν} {k k' : κ} {v : ν k} {v' : ν k'}
    (hfree : Store.row db k = none) (h : Store.row db k' = some v') :
    Store.row (⟨k, v⟩ :: db) k' = some v' := by
  refine (Store.row_cons_ne db v ?_).trans h
  rintro rfl
  nomatch hfree.symm.trans h

/-- A row that is present was written under its key. -/
theorem Store.mem_keys_of_row {db : Store ν} {k : κ} {v : ν k} (h : Store.row db k = some v) :
    k ∈ db.map Sigma.fst :=
  List.dlookup_isSome.mp (by rw [show db.dlookup k = some v from h]; rfl)

end Rows

/-! ## Transaction bodies -/

/-- The statements of a transaction. -/
inductive Tx (ν : κ → Type) (ε α : Type) : Type where
  | pure (a : α)
  | throw (e : ε)
  | lock (k : κ) (next : Option (ν k) → Tx ν ε α)
  | put (k : κ) (row : ν k) (next : Tx ν ε α)

namespace Tx

def bind : Tx ν ε α → (α → Tx ν ε β) → Tx ν ε β
  | .pure a, f => f a
  | .throw e, _ => .throw e
  | .lock k next, f => .lock k fun r => bind (next r) f
  | .put k row next, f => .put k row (bind next f)

instance : Monad (Tx ν ε) where
  pure := .pure
  bind := .bind

instance : MonadExcept ε (Tx ν ε) where
  throw := .throw
  -- a failed statement leaves nothing to go on with: only the error can be replaced
  tryCatch t _ := t

/-- Rethrow every error of `t` as `f` says. -/
def mapError (f : ε → ε) : Tx ν ε α → Tx ν ε α
  | .pure a => .pure a
  | .throw e => .throw (f e)
  | .lock k next => .lock k fun r => mapError f (next r)
  | .put k row next => .put k row (mapError f next)

variable [DecidableEq κ]

/-- Run a body over the committed rows `db`; `w` holds the rows it has written. -/
def exec (db : Store ν) : Tx ν ε α → Store ν → Except ε (α × Store ν)
  | .pure a, w => .ok (a, w)
  | .throw e, _ => .error e
  | .lock k next, w => exec db (next (Store.row (w ++ db) k)) w
  | .put k row next, w => exec db next (⟨k, row⟩ :: w)

@[simp] theorem exec_pure (db w : Store ν) (a : α) :
    exec db (Pure.pure a : Tx ν ε α) w = .ok (a, w) := rfl

@[simp] theorem exec_throw (db w : Store ν) (e : ε) :
    exec db (MonadExcept.throw e : Tx ν ε α) w = .error e := rfl

@[simp] theorem exec_lock (db w : Store ν) (k : κ) (next : Option (ν k) → Tx ν ε α) :
    exec db (.lock k next) w = exec db (next (Store.row (w ++ db) k)) w := rfl

@[simp] theorem exec_put (db w : Store ν) (k : κ) (row : ν k) (next : Tx ν ε α) :
    exec db (.put k row next) w = exec db next (⟨k, row⟩ :: w) := rfl

theorem exec_bind (db : Store ν) (t : Tx ν ε α) (f : α → Tx ν ε β) (w : Store ν) :
    exec db (t >>= f) w = (exec db t w).bind fun p => exec db (f p.1) p.2 := by
  induction t generalizing w with
  | pure a => rfl
  | throw e => rfl
  | lock k next ih => exact ih _ w
  | put k row next ih => exact ih _

/-- A sequence succeeds exactly when its first part does and the rest does after it. -/
theorem exec_bind_ok {db : Store ν} {t : Tx ν ε α} {f : α → Tx ν ε β} {w w' : Store ν} {b : β} :
    exec db (t >>= f) w = .ok (b, w') ↔
      ∃ a w₁, exec db t w = .ok (a, w₁) ∧ exec db (f a) w₁ = .ok (b, w') := by
  rw [exec_bind]
  cases h : exec db t w with
  | error e => simp [Except.bind]
  | ok p =>
    obtain ⟨a, w₁⟩ := p
    simp [Except.bind]

/-- It fails where its first part does, or the rest after it. -/
theorem exec_bind_error {db : Store ν} {t : Tx ν ε α} {f : α → Tx ν ε β} {w : Store ν} {e : ε} :
    exec db (t >>= f) w = .error e ↔ exec db t w = .error e ∨
      ∃ a w₁, exec db t w = .ok (a, w₁) ∧ exec db (f a) w₁ = .error e := by
  rw [exec_bind]
  cases h : exec db t w with
  | error e' => simp [Except.bind]
  | ok p =>
    obtain ⟨a, w₁⟩ := p
    simp [Except.bind]

theorem exec_mapError (g : ε → ε) (db : Store ν) (t : Tx ν ε α) (w : Store ν) :
    exec db (t.mapError g) w = (exec db t w).mapError g := by
  induction t generalizing w with
  | pure a => rfl
  | throw e => rfl
  | lock k next ih => exact ih _ w
  | put k row next ih => exact ih _

theorem exec_mapError_ok {g : ε → ε} {db : Store ν} {t : Tx ν ε α} {w : Store ν} {p : α × Store ν} :
    exec db (t.mapError g) w = .ok p ↔ exec db t w = .ok p := by
  rw [exec_mapError]
  cases exec db t w <;> simp [Except.mapError]

/-! ### An insert -/

section Insert

variable {db w : Store ν} {k : κ} {row : ν k} {e : ε} {next : Option (ν k) → Tx ν ε Unit}

/-- One that succeeds found its key free, and writes its row. -/
theorem exec_insert_ok (hexists : ∀ old, next (some old) = .throw e)
    (hfree : next none = .put k row (.pure ())) (h : exec db (.lock k next) [] = .ok ((), w)) :
    Store.row db k = none ∧ w = [⟨k, row⟩] := by
  rw [exec_lock, List.nil_append] at h
  cases hrow : Store.row db k with
  | some old =>
    rw [hrow, hexists] at h
    nomatch h
  | none =>
    rw [hrow, hfree] at h
    cases h
    exact ⟨rfl, rfl⟩

/-- One that fails found a row. -/
theorem exec_insert_error {e' : ε} (hexists : ∀ old, next (some old) = .throw e)
    (hfree : next none = .put k row (.pure ())) (h : exec db (.lock k next) [] = .error e') :
    e' = e ∧ ∃ old, Store.row db k = some old := by
  rw [exec_lock, List.nil_append] at h
  cases hrow : Store.row db k with
  | some old =>
    rw [hrow, hexists] at h
    cases h
    exact ⟨rfl, old, rfl⟩
  | none =>
    rw [hrow, hfree] at h
    nomatch h

end Insert

/-! ### From rows to rows -/

/-- Rows written before are as good as committed ones. -/
theorem exec_append (db w₀ : Store ν) (t : Tx ν ε α) (w : Store ν) :
    exec db t (w ++ w₀) = (exec (w₀ ++ db) t w).map fun p => (p.1, p.2 ++ w₀) := by
  induction t generalizing w with
  | pure a => rfl
  | throw e => rfl
  | lock k next ih =>
    simp only [exec, List.append_assoc]
    exact ih _ w
  | put k row next ih => exact ih (⟨k, row⟩ :: w)

/-- The body takes the rows `db` to `db'` and returns `a`. -/
def Runs (db : Store ν) (t : Tx ν ε α) (a : α) (db' : Store ν) : Prop :=
  ∃ w, exec db t [] = .ok (a, w) ∧ db' = w ++ db

theorem runs_of_exec {db w : Store ν} {t : Tx ν ε α} {a : α} (h : exec db t [] = .ok (a, w)) :
    Runs db t a (w ++ db) := ⟨w, h, rfl⟩

@[simp] theorem runs_pure {db db' : Store ν} {a b : α} :
    Runs db (Pure.pure a : Tx ν ε α) b db' ↔ b = a ∧ db' = db := by
  constructor
  · rintro ⟨w, h, rfl⟩
    cases h
    exact ⟨rfl, rfl⟩
  · rintro ⟨rfl, rfl⟩
    exact ⟨[], rfl, rfl⟩

@[simp] theorem runs_throw {db db' : Store ν} {e : ε} {a : α} :
    ¬ Runs db (MonadExcept.throw e : Tx ν ε α) a db' := by
  rintro ⟨w, h, -⟩
  cases h

@[simp] theorem runs_lock {db db' : Store ν} {k : κ} {next : Option (ν k) → Tx ν ε α} {a : α} :
    Runs db (.lock k next) a db' ↔ Runs db (next (Store.row db k)) a db' := Iff.rfl

theorem runs_put {db db' : Store ν} {k : κ} {row : ν k} {next : Tx ν ε α} {a : α} :
    Runs db (.put k row next) a db' ↔ Runs (⟨k, row⟩ :: db) next a db' := by
  have happend := exec_append db [⟨k, row⟩] next []
  unfold Runs
  rw [exec_put, ← List.nil_append [(⟨k, row⟩ : Sigma ν)], happend]
  show (∃ w, (exec (⟨k, row⟩ :: db) next []).map _ = .ok (a, w) ∧ db' = w ++ db) ↔ _
  cases hexec : exec (⟨k, row⟩ :: db) next [] with
  | error e => simp [Except.map]
  | ok p =>
    obtain ⟨b, w⟩ := p
    simp [Except.map]

/-- A sequence goes from rows to rows through those between its parts. -/
theorem runs_bind {db db' : Store ν} {t : Tx ν ε α} {f : α → Tx ν ε β} {b : β} :
    Runs db (t >>= f) b db' ↔ ∃ a db₁, Runs db t a db₁ ∧ Runs db₁ (f a) b db' := by
  constructor
  · rintro ⟨w, h, rfl⟩
    obtain ⟨a, w₁, ht, hf⟩ := exec_bind_ok.mp h
    refine ⟨a, w₁ ++ db, ⟨w₁, ht, rfl⟩, ?_⟩
    have happend := exec_append db w₁ (f a) []
    rw [List.nil_append, hf] at happend
    cases hexec : exec (w₁ ++ db) (f a) [] with
    | error e => rw [hexec] at happend; cases happend
    | ok p =>
      rw [hexec] at happend
      obtain ⟨b', w₂⟩ := p
      cases happend
      exact ⟨w₂, hexec, List.append_assoc _ _ _⟩
  · rintro ⟨a, db₁, ⟨w₁, ht, rfl⟩, ⟨w₂, hf, rfl⟩⟩
    refine ⟨w₂ ++ w₁, exec_bind_ok.mpr ⟨a, w₁, ht, ?_⟩, (List.append_assoc _ _ _).symm⟩
    have happend := exec_append db w₁ (f a) []
    rw [List.nil_append, hf] at happend
    exact happend

theorem runs_mapError {db db' : Store ν} {g : ε → ε} {t : Tx ν ε α} {a : α} :
    Runs db (t.mapError g) a db' ↔ Runs db t a db' := by
  unfold Runs
  simp only [exec_mapError_ok]

end Tx

/-! ## Errors a body never raises -/

/-- No run of the body aborts with an error in `bad` of its own. -/
def Tx.Avoids (bad : ε → Prop) : Tx ν ε α → Prop
  | .pure _ => True
  | .throw e => ¬ bad e
  | .lock _ next => ∀ r, (next r).Avoids bad
  | .put _ _ next => next.Avoids bad

section Avoids

variable {bad : ε → Prop}

theorem Tx.Avoids.bind {t : Tx ν ε α} {f : α → Tx ν ε β} (ht : t.Avoids bad)
    (hf : ∀ a, (f a).Avoids bad) : (t >>= f).Avoids bad := by
  induction t with
  | pure a => exact hf a
  | throw e => exact ht
  | lock k next ih => exact fun r => ih r (ht r)
  | put k row next ih => exact ih ht

theorem Tx.Avoids.mapError {g : ε → ε} {t : Tx ν ε α} (ht : t.Avoids fun e => bad (g e)) :
    (t.mapError g).Avoids bad := by
  induction t with
  | pure a => trivial
  | throw e => exact ht
  | lock k next ih => exact fun r => ih r (ht r)
  | put k row next ih => exact ih ht

theorem Tx.Avoids.exec [DecidableEq κ] {t : Tx ν ε α} (ht : t.Avoids bad) {db w : Store ν} {e : ε}
    (h : t.exec db w = .error e) : ¬ bad e := by
  induction t generalizing w with
  | pure a => cases h
  | throw e' =>
    cases h
    exact ht
  | lock k next ih => exact ih _ (ht _) h
  | put k row next ih => exact ih ht h

end Avoids

end Concurrency
