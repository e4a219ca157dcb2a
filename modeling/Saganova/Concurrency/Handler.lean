import Saganova.Concurrency.Transaction

/-!
# Handlers

A message handler is a tree of the steps that others can see between
(`Proc`): it reads committed rows outside a transaction, runs a transaction,
or performs an action outside the database (`A`, answered in `ρ a`): a
publish, a call to another service, a draw of a random id, a look at the
clock.  Everything between two such steps is local computation.

`Proc.run` runs a handler to its end with nothing else running: the sequential
meaning, used where messages are handled one at a time.
-/

namespace Concurrency

variable {κ : Type} {ν : κ → Type} {ε A μ α β : Type} {ρ : A → Type}

/-- A handler: what is left to do. -/
inductive Proc (ν : κ → Type) (ε : Type) (ρ : A → Type) (α : Type) : Type where
  | pure (a : α)
  | throw (e : ε)
  /-- one SELECT of committed rows, outside any transaction -/
  | read (next : Store ν → Proc ν ε ρ α)
  /-- one transaction: the caller sees a commit as `ok` and an abort as its error -/
  | tx (body : Tx ν ε Unit) (next : Except ε Unit → Proc ν ε ρ α)
  | act (a : A) (next : ρ a → Proc ν ε ρ α)

namespace Proc

def bind : Proc ν ε ρ α → (α → Proc ν ε ρ β) → Proc ν ε ρ β
  | .pure a, f => f a
  | .throw e, _ => .throw e
  | .read next, f => .read fun db => bind (next db) f
  | .tx body next, f => .tx body fun r => bind (next r) f
  | .act a next, f => .act a fun r => bind (next r) f

/-- `try { p } catch (e) { h e }` -/
def tryCatch : Proc ν ε ρ α → (ε → Proc ν ε ρ α) → Proc ν ε ρ α
  | .pure a, _ => .pure a
  | .throw e, h => h e
  | .read next, h => .read fun db => tryCatch (next db) h
  | .tx body next, h => .tx body fun r => tryCatch (next r) h
  | .act a next, h => .act a fun r => tryCatch (next r) h

instance : Monad (Proc ν ε ρ) where
  pure := .pure
  bind := .bind

instance : MonadExcept ε (Proc ν ε ρ) where
  throw := .throw
  tryCatch := .tryCatch

/-- Go on with a result, or fail with its error. -/
def ofExcept : Except ε α → Proc ν ε ρ α
  | .ok a => .pure a
  | .error e => .throw e

/-- `dataSource.transaction(body)` -/
def transaction (body : Tx ν ε Unit) : Proc ν ε ρ Unit :=
  .tx body ofExcept

/-- One query of the committed rows. -/
def select (query : Store ν → α) : Proc ν ε ρ α :=
  .read fun db => .pure (query db)

/-- Perform an action and return its answer. -/
def perform (ρ : A → Type) (a : A) : Proc ν ε ρ (ρ a) :=
  .act a .pure

section Rules

/-- `pure` and `throw` are written as those of the monad. -/
@[simp] theorem pure_def (a : α) : (.pure a : Proc ν ε ρ α) = Pure.pure a := rfl

@[simp] theorem throw_def (e : ε) : (.throw e : Proc ν ε ρ α) = MonadExcept.throw e := rfl

@[simp] theorem throw_bind (e : ε) (f : α → Proc ν ε ρ β) :
    (MonadExcept.throw e : Proc ν ε ρ α) >>= f = MonadExcept.throw e := rfl

@[simp] theorem read_bind (next : Store ν → Proc ν ε ρ α) (f : α → Proc ν ε ρ β) :
    (.read next >>= f : Proc ν ε ρ β) = .read fun db => next db >>= f := rfl

@[simp] theorem tx_bind (body : Tx ν ε Unit) (next : Except ε Unit → Proc ν ε ρ α)
    (f : α → Proc ν ε ρ β) :
    (.tx body next >>= f : Proc ν ε ρ β) = .tx body fun r => next r >>= f := rfl

@[simp] theorem act_bind (a : A) (next : ρ a → Proc ν ε ρ α) (f : α → Proc ν ε ρ β) :
    (.act a next >>= f : Proc ν ε ρ β) = .act a fun r => next r >>= f := rfl

@[simp] theorem select_bind (query : Store ν → α) (f : α → Proc ν ε ρ β) :
    (select query >>= f : Proc ν ε ρ β) = .read fun db => f (query db) := rfl

@[simp] theorem perform_bind (a : A) (f : ρ a → Proc ν ε ρ β) :
    (perform ρ a >>= f : Proc ν ε ρ β) = .act a f := rfl

@[simp] theorem transaction_bind (body : Tx ν ε Unit) (f : Unit → Proc ν ε ρ β) :
    (transaction body >>= f : Proc ν ε ρ β) = .tx body fun r => ofExcept r >>= f := rfl

@[simp] theorem ofExcept_ok (a : α) : (ofExcept (.ok a) : Proc ν ε ρ α) = Pure.pure a := rfl

@[simp] theorem ofExcept_error (e : ε) : (ofExcept (.error e) : Proc ν ε ρ α) =
    MonadExcept.throw e := rfl

theorem bind_pure_self (p : Proc ν ε ρ α) : Proc.bind p Proc.pure = p := by
  induction p with
  | pure a => rfl
  | throw e => rfl
  | read next ih => exact congrArg Proc.read (funext ih)
  | tx body next ih => exact congrArg (Proc.tx body) (funext ih)
  | act a next ih => exact congrArg (Proc.act a) (funext ih)

theorem bind_bind {γ : Type} (p : Proc ν ε ρ α) (f : α → Proc ν ε ρ β) (g : β → Proc ν ε ρ γ) :
    Proc.bind (Proc.bind p f) g = Proc.bind p fun a => Proc.bind (f a) g := by
  induction p with
  | pure a => rfl
  | throw e => rfl
  | read next ih => exact congrArg Proc.read (funext ih)
  | tx body next ih => exact congrArg (Proc.tx body) (funext ih)
  | act a next ih => exact congrArg (Proc.act a) (funext ih)

instance : LawfulMonad (Proc ν ε ρ) :=
  LawfulMonad.mk' _ bind_pure_self (fun _ _ => rfl) bind_bind

end Rules

/-! ## Actions a handler never performs -/

/-- No run of the handler performs an action in `bad`. -/
def Avoids (bad : A → Prop) : Proc ν ε ρ α → Prop
  | .pure _ => True
  | .throw _ => True
  | .read next => ∀ db, (next db).Avoids bad
  | .tx _ next => ∀ r, (next r).Avoids bad
  | .act a next => ¬ bad a ∧ ∀ r, (next r).Avoids bad

section Avoids

variable {bad : A → Prop}

theorem avoids_pure (a : α) : (Pure.pure a : Proc ν ε ρ α).Avoids bad := trivial

theorem avoids_throw (e : ε) : (MonadExcept.throw e : Proc ν ε ρ α).Avoids bad := trivial

theorem avoids_ofExcept (r : Except ε α) :
    (ofExcept r : Proc ν ε ρ α).Avoids bad := by
  cases r <;> trivial

theorem Avoids.bind {p : Proc ν ε ρ α} {f : α → Proc ν ε ρ β} (hp : p.Avoids bad)
    (hf : ∀ a, (f a).Avoids bad) : (p >>= f).Avoids bad := by
  induction p with
  | pure a => exact hf a
  | throw e => trivial
  | read next ih => exact fun db => ih db (hp db)
  | tx body next ih => exact fun r => ih r (hp r)
  | act a next ih => exact ⟨hp.1, fun r => ih r (hp.2 r)⟩

theorem Avoids.tryCatch {p : Proc ν ε ρ α} {f : ε → Proc ν ε ρ α} (hp : p.Avoids bad)
    (hf : ∀ e, (f e).Avoids bad) : (MonadExcept.tryCatch p f).Avoids bad := by
  induction p with
  | pure a => trivial
  | throw e => exact hf e
  | read next ih => exact fun db => ih db (hp db)
  | tx body next ih => exact fun r => ih r (hp r)
  | act a next ih => exact ⟨hp.1, fun r => ih r (hp.2 r)⟩

theorem avoids_transaction (body : Tx ν ε Unit) :
    (transaction body : Proc ν ε ρ Unit).Avoids bad := fun r => avoids_ofExcept r

theorem avoids_nothing (p : Proc ν ε ρ α) : p.Avoids fun _ => False := by
  induction p with
  | pure a => trivial
  | throw e => trivial
  | read next ih => exact ih
  | tx body next ih => exact ih
  | act a next ih => exact ⟨id, ih⟩

end Avoids

/-! ## Handlers with one transaction -/

/-- No run of the handler opens a transaction. -/
def ReadOnly : Proc ν ε ρ α → Prop
  | .pure _ => True
  | .throw _ => True
  | .read next => ∀ db, (next db).ReadOnly
  | .tx _ _ => False
  | .act _ next => ∀ r, (next r).ReadOnly

/-- No run of the handler opens a second transaction. -/
def OneTx : Proc ν ε ρ α → Prop
  | .pure _ => True
  | .throw _ => True
  | .read next => ∀ db, (next db).OneTx
  | .tx _ next => ∀ r, (next r).ReadOnly
  | .act _ next => ∀ r, (next r).OneTx

section OneTx

theorem readOnly_ofExcept (r : Except ε α) : (ofExcept r : Proc ν ε ρ α).ReadOnly := by
  cases r <;> trivial

theorem ReadOnly.bind {p : Proc ν ε ρ α} {f : α → Proc ν ε ρ β} (hp : p.ReadOnly)
    (hf : ∀ a, (f a).ReadOnly) : (p >>= f).ReadOnly := by
  induction p with
  | pure a => exact hf a
  | throw e => trivial
  | read next ih => exact fun db => ih db (hp db)
  | tx body next ih => exact absurd hp id
  | act a next ih => exact fun r => ih r (hp r)

theorem ReadOnly.tryCatch {p : Proc ν ε ρ α} {f : ε → Proc ν ε ρ α} (hp : p.ReadOnly)
    (hf : ∀ e, (f e).ReadOnly) : (MonadExcept.tryCatch p f).ReadOnly := by
  induction p with
  | pure a => trivial
  | throw e => exact hf e
  | read next ih => exact fun db => ih db (hp db)
  | tx body next ih => exact absurd hp id
  | act a next ih => exact fun r => ih r (hp r)

theorem ReadOnly.oneTx {p : Proc ν ε ρ α} (hp : p.ReadOnly) : p.OneTx := by
  induction p with
  | pure a => trivial
  | throw e => trivial
  | read next ih => exact fun db => ih db (hp db)
  | tx body next ih => exact absurd hp id
  | act a next ih => exact fun r => ih r (hp r)

theorem oneTx_transaction (body : Tx ν ε Unit) : (transaction body : Proc ν ε ρ Unit).OneTx :=
  fun r => readOnly_ofExcept r

/-- Reading first and then one transaction. -/
theorem ReadOnly.bind_oneTx {p : Proc ν ε ρ α} {f : α → Proc ν ε ρ β} (hp : p.ReadOnly)
    (hf : ∀ a, (f a).OneTx) : (p >>= f).OneTx := by
  induction p with
  | pure a => exact hf a
  | throw e => trivial
  | read next ih => exact fun db => ih db (hp db)
  | tx body next ih => exact absurd hp id
  | act a next ih => exact fun r => ih r (hp r)

/-- One transaction and then only reading. -/
theorem OneTx.bind {p : Proc ν ε ρ α} {f : α → Proc ν ε ρ β} (hp : p.OneTx)
    (hf : ∀ a, (f a).ReadOnly) : (p >>= f).OneTx := by
  induction p with
  | pure a => exact (hf a).oneTx
  | throw e => trivial
  | read next ih => exact fun db => ih db (hp db)
  | tx body next ih => exact fun r => (hp r).bind hf
  | act a next ih => exact fun r => ih r (hp r)

theorem OneTx.tryCatch {p : Proc ν ε ρ α} {f : ε → Proc ν ε ρ α} (hp : p.OneTx)
    (hf : ∀ e, (f e).ReadOnly) : (MonadExcept.tryCatch p f).OneTx := by
  induction p with
  | pure a => trivial
  | throw e => exact (hf e).oneTx
  | read next ih => exact fun db => ih db (hp db)
  | tx body next ih => exact fun r => (hp r).tryCatch hf
  | act a next ih => exact fun r => ih r (hp r)

end OneTx

end Proc

/-! ## What is shared -/

/-- One thing a handler did that others can see. -/
inductive Event (ν : κ → Type) (ρ : A → Type) (μ : Type) where
  /-- the handler of `task` performed `a` and was answered `r` -/
  | acted (task : μ) (a : A) (r : ρ a)
  /-- a transaction of the handler of `task` committed these rows -/
  | committed (task : μ) (writes : Store ν)

/-- The committed rows, and everything that happened so far, newest first. -/
structure Shared (ν : κ → Type) (ρ : A → Type) (μ : Type) where
  db : Store ν
  trace : List (Event ν ρ μ)

namespace Shared

def commit (s : Shared ν ρ μ) (task : μ) (writes : Store ν) : Shared ν ρ μ :=
  { db := writes ++ s.db, trace := .committed task writes :: s.trace }

def acted (s : Shared ν ρ μ) (task : μ) (a : A) (r : ρ a) : Shared ν ρ μ :=
  { s with trace := .acted task a r :: s.trace }

@[simp] theorem commit_db (s : Shared ν ρ μ) (task : μ) (writes : Store ν) :
    (s.commit task writes).db = writes ++ s.db := rfl

@[simp] theorem commit_trace (s : Shared ν ρ μ) (task : μ) (writes : Store ν) :
    (s.commit task writes).trace = .committed task writes :: s.trace := rfl

@[simp] theorem acted_db (s : Shared ν ρ μ) (task : μ) (a : A) (r : ρ a) :
    (s.acted task a r).db = s.db := rfl

@[simp] theorem acted_trace (s : Shared ν ρ μ) (task : μ) (a : A) (r : ρ a) :
    (s.acted task a r).trace = .acted task a r :: s.trace := rfl

end Shared

/-! ## One handler at a time -/

/-- Run a handler to its end with nothing else running; `answer k a` is what
the outside says to `a` when `k` things have happened before. -/
def Proc.run [DecidableEq κ] (answer : ℕ → (a : A) → ρ a) (task : μ) :
    Proc ν ε ρ α → Shared ν ρ μ → Except ε α × Shared ν ρ μ
  | .pure a, s => (.ok a, s)
  | .throw e, s => (.error e, s)
  | .read next, s => run answer task (next s.db) s
  | .tx body next, s =>
    match body.exec s.db [] with
    | .ok (_, writes) => run answer task (next (.ok ())) (s.commit task writes)
    | .error e => run answer task (next (.error e)) s
  | .act a next, s =>
    let r := answer s.trace.length a
    run answer task (next r) (s.acted task a r)

end Concurrency
