import Mathlib.Data.Set.Finite.Basic
import Saganova.Concurrency.Sequential

/-!
# Executions

What one handler does while others write as they like (`Proc.Does`), and with
nobody else writing (`Alone`).  A transaction may fail with a fault; the handler
may be gone at any point.  A run alone is such an execution (`Proc.does_did`).

`Proc.RaisesOnly`: the errors that a handler, run alone, may throw.
-/

namespace Concurrency

variable {κ : Type} {ν : κ → Type} {ε A μ α β : Type} {ρ : A → Type}

/-- One thing that a handler did, with the rows it saw. -/
inductive Did (ν : κ → Type) (ε : Type) (ρ : A → Type) where
  | read (db : Store ν)
  | committed (db writes : Store ν)
  | aborted (db : Store ν) (e : ε)
  | acted (a : A) (r : ρ a)

/-- Something is left to do. -/
def Proc.Unfinished : Proc ν ε ρ α → Prop
  | .pure _ => False
  | .throw _ => False
  | _ => True

theorem Proc.Unfinished.ne_pure {q : Proc ν ε ρ α} (h : q.Unfinished) (a : α) : q ≠ Pure.pure a := by
  rintro rfl
  exact h

theorem Proc.Unfinished.ne_throw {q : Proc ν ε ρ α} (h : q.Unfinished) (e : ε) :
    q ≠ MonadExcept.throw e := by
  rintro rfl
  exact h

variable [DecidableEq κ]

/-- The handler does these things, and the last argument is left of it. -/
inductive Proc.Does (fault : ε → Prop) :
    Proc ν ε ρ α → List (Did ν ε ρ) → Proc ν ε ρ α → Prop
  | nothing {p : Proc ν ε ρ α} : Does fault p [] p
  | read {next : Store ν → Proc ν ε ρ α} {did : List (Did ν ε ρ)} {q : Proc ν ε ρ α}
      (db : Store ν) : Does fault (next db) did q →
      Does fault (.read next) (.read db :: did) q
  | commit {body : Tx ν ε Unit} {next : Except ε Unit → Proc ν ε ρ α} {did : List (Did ν ε ρ)}
      {q : Proc ν ε ρ α} {db writes : Store ν} : body.exec db [] = .ok ((), writes) →
      Does fault (next (.ok ())) did q → Does fault (.tx body next) (.committed db writes :: did) q
  | abort {body : Tx ν ε Unit} {next : Except ε Unit → Proc ν ε ρ α} {did : List (Did ν ε ρ)}
      {q : Proc ν ε ρ α} {db : Store ν} {e : ε} : fault e ∨ body.exec db [] = .error e →
      Does fault (next (.error e)) did q → Does fault (.tx body next) (.aborted db e :: did) q
  | act {a : A} {next : ρ a → Proc ν ε ρ α} {did : List (Did ν ε ρ)} {q : Proc ν ε ρ α}
      (r : ρ a) : Does fault (next r) did q → Does fault (.act a next) (.acted a r :: did) q

/-- Nobody else writes: each thing is done on the rows that the one before left. -/
def Alone : Store ν → List (Did ν ε ρ) → Store ν → Prop
  | db, [], db' => db' = db
  | db, .read seen :: did, db' => seen = db ∧ Alone db did db'
  | db, .committed seen writes :: did, db' => seen = db ∧ Alone (writes ++ db) did db'
  | db, .aborted seen _ :: did, db' => seen = db ∧ Alone db did db'
  | db, .acted _ _ :: did, db' => Alone db did db'

section Does

variable {fault : ε → Prop} {did : List (Did ν ε ρ)} {q : Proc ν ε ρ α}

theorem Proc.does_pure {a : α} (h : Does fault (Pure.pure a) did q) : did = [] ∧ q = Pure.pure a := by
  cases h
  exact ⟨rfl, rfl⟩

theorem Proc.does_throw {e : ε} (h : Does fault (MonadExcept.throw e) did q) :
    did = [] ∧ q = MonadExcept.throw e := by
  cases h
  exact ⟨rfl, rfl⟩

theorem Proc.does_read {next : Store ν → Proc ν ε ρ α} (h : Does fault (.read next) did q) :
    did = [] ∧ q = .read next ∨ ∃ db did', did = .read db :: did' ∧ Does fault (next db) did' q := by
  cases h with
  | nothing => exact .inl ⟨rfl, rfl⟩
  | read db h => exact .inr ⟨db, _, rfl, h⟩

theorem Proc.does_act {a : A} {next : ρ a → Proc ν ε ρ α} (h : Does fault (.act a next) did q) :
    did = [] ∧ q = .act a next ∨ ∃ r did', did = .acted a r :: did' ∧ Does fault (next r) did' q := by
  cases h with
  | nothing => exact .inl ⟨rfl, rfl⟩
  | act r h => exact .inr ⟨r, _, rfl, h⟩

theorem Proc.does_tx {body : Tx ν ε Unit} {next : Except ε Unit → Proc ν ε ρ α}
    (h : Does fault (.tx body next) did q) :
    did = [] ∧ q = .tx body next ∨
      (∃ db writes did', did = .committed db writes :: did' ∧
        body.exec db [] = .ok ((), writes) ∧ Does fault (next (.ok ())) did' q) ∨
      ∃ db e did', did = .aborted db e :: did' ∧ (fault e ∨ body.exec db [] = .error e) ∧
        Does fault (next (.error e)) did' q := by
  cases h with
  | nothing => exact .inl ⟨rfl, rfl⟩
  | commit hexec h => exact .inr (.inl ⟨_, _, _, rfl, hexec, h⟩)
  | abort herror h => exact .inr (.inr ⟨_, _, _, rfl, herror, h⟩)

end Does

section Did

variable (answer : ℕ → (a : A) → ρ a) (t : μ)

/-- What a handler does that runs alone, without faults. -/
def Proc.did : Proc ν ε ρ α → ℕ → Store ν → List (Did ν ε ρ)
  | .pure _, _, _ => []
  | .throw _, _, _ => []
  | .read next, n, db => .read db :: (next db).did n db
  | .tx body next, n, db =>
    match body.exec db [] with
    | .ok (_, writes) => .committed db writes :: (next (.ok ())).did (n + 1) (writes ++ db)
    | .error e => .aborted db e :: (next (.error e)).did n db
  | .act a next, n, db => .acted a (answer n a) :: (next (answer n a)).did (n + 1) db

/-- **A run alone is an execution.** -/
theorem Proc.does_did (fault : ε → Prop) (p : Proc ν ε ρ α) (s : Shared ν ρ μ) :
    p.Does fault (p.did answer s.trace.length s.db) (ofExcept (p.run answer t s).1) ∧
      Alone s.db (p.did answer s.trace.length s.db) (p.run answer t s).2.db := by
  induction p generalizing s with
  | pure a => exact ⟨.nothing, rfl⟩
  | throw e => exact ⟨.nothing, rfl⟩
  | read next ih =>
    obtain ⟨hdoes, halone⟩ := ih s.db s
    exact ⟨.read _ hdoes, rfl, halone⟩
  | act a next ih =>
    obtain ⟨hdoes, halone⟩ := ih (answer s.trace.length a)
      (s.acted t a (answer s.trace.length a))
    exact ⟨.act _ hdoes, halone⟩
  | tx body next ih =>
    unfold Proc.did
    cases hexec : body.exec s.db [] with
    | ok r =>
      rw [run_tx_ok _ _ _ hexec]
      obtain ⟨hdoes, halone⟩ := ih (.ok ()) (s.commit t r.2)
      exact ⟨.commit hexec hdoes, rfl, halone⟩
    | error e =>
      rw [run_tx_error _ _ _ hexec]
      obtain ⟨hdoes, halone⟩ := ih (.error e) s
      exact ⟨.abort (.inr hexec) hdoes, rfl, halone⟩

end Did

/-- Of infinitely many keys some are free. -/
theorem Store.exists_free {ι : Type} [Infinite ι] {f : ι → κ} (hf : f.Injective) (db : Store ν) :
    ∃ x, Store.row db (f x) = none := by
  by_contra! h
  have hkeys : Set.range f ⊆ {k | k ∈ db.map Sigma.fst} := by
    rintro _ ⟨x, rfl⟩
    obtain ⟨v, hv⟩ := Option.ne_none_iff_exists'.mp (h x)
    exact Store.mem_keys_of_row hv
  exact Set.infinite_range_of_injective hf ((List.finite_toSet _).subset hkeys)

/-! ## What it never does -/

variable {answer : ℕ → (a : A) → ρ a} {t : μ}

/-- What it never does is not in the trace. -/
theorem Proc.Avoids.acted_run {bad : A → Prop} {p : Proc ν ε ρ α} (hp : p.Avoids bad) {a : A}
    (ha : bad a) {r : ρ a} {s : Shared ν ρ μ}
    (h : Event.acted t a r ∈ (p.run answer t s).2.trace) : Event.acted t a r ∈ s.trace := by
  induction p generalizing s with
  | pure a => exact h
  | throw e => exact h
  | read next ih => exact ih _ (hp _) h
  | act a' next ih =>
    rcases List.mem_cons.mp (ih _ (hp.2 _) h) with heq | hmem
    · cases heq
      exact absurd ha hp.1
    · exact hmem
  | tx body next ih =>
    cases hexec : body.exec s.db [] with
    | error e =>
      rw [run_tx_error _ _ _ hexec] at h
      exact ih _ (hp _) h
    | ok w =>
      rw [run_tx_ok _ _ _ hexec] at h
      rcases List.mem_cons.mp (ih _ (hp _) h) with heq | hmem
      · nomatch heq
      · exact hmem

/-! ## What it throws -/

section Raises

/-- Run alone, with these answers, the handler throws errors in `E` only. -/
def Proc.RaisesOnly (answer : ℕ → (a : A) → ρ a) (t : μ) (E : ε → Prop) (p : Proc ν ε ρ α) :
    Prop :=
  ∀ s e, (p.run answer t s).1 = .error e → E e

variable {E : ε → Prop}

theorem Proc.raisesOnly_pure (a : α) :
    (Pure.pure a : Proc ν ε ρ α).RaisesOnly answer t E := nofun

theorem Proc.raisesOnly_throw {e : ε} (h : E e) :
    (MonadExcept.throw e : Proc ν ε ρ α).RaisesOnly answer t E := by
  intro s e' he
  obtain rfl := Except.error.inj he
  exact h

theorem Proc.raisesOnly_ofExcept {r : Except ε α} (h : ∀ e, r = .error e → E e) :
    (ofExcept r : Proc ν ε ρ α).RaisesOnly answer t E := by
  cases r with
  | ok a => exact raisesOnly_pure a
  | error e => exact raisesOnly_throw (h e rfl)

theorem Proc.raisesOnly_act {a : A} {next : ρ a → Proc ν ε ρ α}
    (h : ∀ k, (next (answer k a)).RaisesOnly answer t E) :
    (Proc.act a next : Proc ν ε ρ α).RaisesOnly answer t E :=
  fun s e he => h s.trace.length _ e he

theorem Proc.RaisesOnly.bind {p : Proc ν ε ρ α} {f : α → Proc ν ε ρ β}
    (hp : p.RaisesOnly answer t E) (hf : ∀ a, (f a).RaisesOnly answer t E) :
    (p >>= f).RaisesOnly answer t E := by
  intro s e he
  rw [run_bind] at he
  rcases hrun : p.run answer t s with ⟨r, s'⟩
  rw [hrun] at he
  cases r with
  | ok a => exact hf a s' e he
  | error e' =>
    obtain rfl := Except.error.inj he
    exact hp s e' (congrArg Prod.fst hrun)

end Raises

end Concurrency
