import Mathlib.Data.Finset.Piecewise
import Mathlib.Data.Fintype.Sets
import Mathlib.Logic.Relation
import Saganova.Concurrency.RowLocks

/-!
# Wait cycles

Transactions that take their row locks one statement at a time, and keep them to
the end, can wait for each other in a circle.

`OpenTx.Next` is a statement over rows that nobody else changes, and
`Sessions.Step` one of any number of transactions over shared rows.  A statement
for a row that does not exist locks nothing, unless its key is one of a unique
index (`indexed`).

What an open transaction has done it could have done alone over the rows as they
are (`Inv.alone`); and transactions that went some way alone, no two of them with
a lock in common, can all be there at once (`reach_together`).  So a wait cycle is
a matter of transactions run alone (`waitCycle_iff`).
-/

namespace Concurrency

open Relation

variable {κ : Type} {ν : κ → Type} {ε α β : Type}

/-! ## The locks of a body -/

/-- The key whose lock the next statement takes. -/
def Tx.wants : Tx ν ε α → Option κ
  | .lock k _ => some k
  | .put k _ _ => some k
  | .pure _ | .throw _ => none

/-- Every statement of the body is for a key in `P`. -/
def Tx.Touches (P : κ → Prop) : Tx ν ε α → Prop
  | .pure _ | .throw _ => True
  | .lock k next => P k ∧ ∀ r, (next r).Touches P
  | .put k _ next => P k ∧ next.Touches P

/-- The body writes a key only where its row is there, or the key is one of a
unique index; the rows of `held` are there. -/
def Tx.Updates (indexed : κ → Prop) : List κ → Tx ν ε α → Prop
  | _, .pure _ | _, .throw _ => True
  | held, .lock k next => (next none).Updates indexed held ∧
      ∀ row, (next (some row)).Updates indexed (k :: held)
  | held, .put k _ next => (indexed k ∨ k ∈ held) ∧ next.Updates indexed held

section Body

theorem Tx.bind_bind {γ : Type} (t : Tx ν ε α) (f : α → Tx ν ε β) (g : β → Tx ν ε γ) :
    (t >>= f) >>= g = t >>= fun a => f a >>= g := by
  induction t with
  | pure a => rfl
  | throw e => rfl
  | lock k next ih => exact congrArg (Tx.lock k) (funext ih)
  | put k row next ih => exact congrArg (Tx.put k row) ih

variable {P indexed : κ → Prop} {held held' : List κ}

theorem Tx.Touches.wants {t : Tx ν ε α} (ht : t.Touches P) {k : κ} (hk : t.wants = some k) :
    P k := by
  cases t with
  | pure a => nomatch hk
  | throw e => nomatch hk
  | lock k' next =>
    obtain rfl := Option.some.inj hk
    exact ht.1
  | put k' row next =>
    obtain rfl := Option.some.inj hk
    exact ht.1

theorem Tx.Touches.bind {t : Tx ν ε α} {f : α → Tx ν ε β} (ht : t.Touches P)
    (hf : ∀ a, (f a).Touches P) : (t >>= f).Touches P := by
  induction t with
  | pure a => exact hf a
  | throw e => trivial
  | lock k next ih => exact ⟨ht.1, fun r => ih r (ht.2 r)⟩
  | put k row next ih => exact ⟨ht.1, ih ht.2⟩

theorem Tx.Touches.mapError {t : Tx ν ε α} (ht : t.Touches P) (f : ε → ε) :
    (t.mapError f).Touches P := by
  induction t with
  | pure a => trivial
  | throw e => trivial
  | lock k next ih => exact ⟨ht.1, fun r => ih r (ht.2 r)⟩
  | put k row next ih => exact ⟨ht.1, ih ht.2⟩

theorem Tx.Updates.mono {t : Tx ν ε α} (ht : t.Updates indexed held) (h : held ⊆ held') :
    t.Updates indexed held' := by
  induction t generalizing held held' with
  | pure a => trivial
  | throw e => trivial
  | lock k next ih =>
    exact ⟨ih _ ht.1 h, fun row => ih _ (ht.2 row) (List.cons_subset_cons k h)⟩
  | put k row next ih => exact ⟨ht.1.imp id fun hk => h hk, ih ht.2 h⟩

theorem Tx.Updates.bind {t : Tx ν ε α} {f : α → Tx ν ε β} (ht : t.Updates indexed held)
    (hf : ∀ a, (f a).Updates indexed []) : (t >>= f).Updates indexed held := by
  induction t generalizing held with
  | pure a => exact (hf a).mono (List.nil_subset held)
  | throw e => trivial
  | lock k next ih => exact ⟨ih _ ht.1, fun row => ih _ (ht.2 row)⟩
  | put k row next ih => exact ⟨ht.1, ih ht.2⟩

/-- A body for keys of unique indexes alone. -/
theorem Tx.Touches.updates {t : Tx ν ε α} (ht : t.Touches indexed) : t.Updates indexed held := by
  induction t generalizing held with
  | pure a => trivial
  | throw e => trivial
  | lock k next ih => exact ⟨ih _ (ht.2 none), fun row => ih _ (ht.2 (some row))⟩
  | put k row next ih => exact ⟨.inl ht.1, ih ht.2⟩

end Body

/-! ## Alone -/

variable [DecidableEq κ]

/-- There is something to lock at `k`. -/
def Lockable (indexed : κ → Prop) (rows : Store ν) (k : κ) : Prop :=
  indexed k ∨ (Store.row rows k).isSome

/-- One statement over the rows `db`. -/
inductive OpenTx.Next (indexed : κ → Prop) (db : Store ν) : OpenTx ν ε → OpenTx ν ε → Prop
  | lock {k : κ} {next : Option (ν k) → Tx ν ε Unit} {locks : List κ} {writes : Store ν} :
      Lockable indexed (writes ++ db) k → OpenTx.Next indexed db ⟨.lock k next, locks, writes⟩
        ⟨next (Store.row (writes ++ db) k), k :: locks, writes⟩
  | miss {k : κ} {next : Option (ν k) → Tx ν ε Unit} {locks : List κ} {writes : Store ν} :
      ¬ Lockable indexed (writes ++ db) k → OpenTx.Next indexed db ⟨.lock k next, locks, writes⟩
        ⟨next none, locks, writes⟩
  | put {k : κ} {row : ν k} {next : Tx ν ε Unit} {locks : List κ} {writes : Store ν} :
      OpenTx.Next indexed db ⟨.put k row next, locks, writes⟩
        ⟨next, k :: locks, ⟨k, row⟩ :: writes⟩

/-- The body gets to `o` when nothing else runs. -/
def OpenTx.Alone (indexed : κ → Prop) (db : Store ν) (body : Tx ν ε Unit) (o : OpenTx ν ε) : Prop :=
  ReflTransGen (OpenTx.Next indexed db) ⟨body, [], []⟩ o

section Alone

variable {indexed : κ → Prop} {db : Store ν} {o o' : OpenTx ν ε} {body : Tx ν ε Unit}

theorem OpenTx.Next.locks_subset (h : OpenTx.Next indexed db o o') : o.locks ⊆ o'.locks := by
  cases h with
  | lock _ => exact List.subset_cons_self _ _
  | miss _ => exact List.Subset.refl _
  | put => exact List.subset_cons_self _ _

theorem OpenTx.Next.touches {P : κ → Prop} (h : OpenTx.Next indexed db o o')
    (ho : o.rest.Touches P) : o'.rest.Touches P := by
  cases h with
  | lock _ => exact ho.2 _
  | miss _ => exact ho.2 _
  | put => exact ho.2

theorem locks_subset_of_next (h : ReflTransGen (OpenTx.Next indexed db) o o') :
    o.locks ⊆ o'.locks := by
  induction h with
  | refl => exact List.Subset.refl _
  | tail _ hnext ih => exact fun k hk => hnext.locks_subset (ih hk)

theorem touches_of_next {P : κ → Prop} (h : ReflTransGen (OpenTx.Next indexed db) o o')
    (ho : o.rest.Touches P) : o'.rest.Touches P := by
  induction h with
  | refl => exact ho
  | tail _ hnext ih => exact hnext.touches ih

/-- What the locks and the writes of a transaction say about the rows. -/
structure OpenTx.Sound (indexed : κ → Prop) (db : Store ν) (o : OpenTx ν ε) : Prop where
  updates : o.rest.Updates indexed o.locks
  lockable : ∀ k ∈ o.locks, Lockable indexed db k
  written : ∀ k, (Store.row o.writes k).isSome → k ∈ o.locks

theorem OpenTx.Next.sound (h : OpenTx.Next indexed db o o') (ho : o.Sound indexed db) :
    o'.Sound indexed db := by
  cases h with
  | @lock k next locks writes hlockable =>
    refine ⟨?_, ?_, fun k' hk' => List.mem_cons_of_mem k (ho.written k' hk')⟩
    · show Tx.Updates indexed (k :: locks) (next (Store.row (writes ++ db) k))
      cases Store.row (writes ++ db) k with
      | none => exact ho.updates.1.mono (List.subset_cons_self k locks)
      | some row => exact ho.updates.2 row
    · intro k' hk'
      obtain rfl | hk' := List.mem_cons.mp hk'
      · obtain hindexed | hrow := hlockable
        · exact .inl hindexed
        · rw [Store.row_append, Option.isSome_or, Bool.or_eq_true] at hrow
          obtain hwritten | hrow := hrow
          · exact ho.lockable _ (ho.written _ hwritten)
          · exact .inr hrow
      · exact ho.lockable k' hk'
  | miss _ => exact ⟨ho.updates.1, ho.lockable, ho.written⟩
  | @put k row next locks writes =>
    refine ⟨ho.updates.2.mono (List.subset_cons_self k locks), fun k' hk' => ?_, fun k' hk' => ?_⟩
    · obtain rfl | hk' := List.mem_cons.mp hk'
      · exact ho.updates.1.elim .inl (ho.lockable _)
      · exact ho.lockable k' hk'
    · by_cases hkk : k' = k
      · exact hkk ▸ List.mem_cons_self
      · rw [Store.row_cons_ne _ _ hkk] at hk'
        exact List.mem_cons_of_mem k (ho.written k' hk')

theorem sound_of_next (h : ReflTransGen (OpenTx.Next indexed db) o o')
    (ho : o.Sound indexed db) : o'.Sound indexed db := by
  induction h with
  | refl => exact ho
  | tail _ hnext ih => exact hnext.sound ih

theorem sound_begin (hbody : body.Updates indexed []) :
    OpenTx.Sound indexed db ⟨body, [], []⟩ := ⟨hbody, nofun, nofun⟩

/-- Writes that leave the locked rows alone, and add none outside the unique
indexes, do not change what is run alone. -/
theorem OpenTx.Alone.frame {writes : Store ν} (h : OpenTx.Alone indexed db body o)
    (hlocked : ∀ k ∈ o.locks, Store.row writes k = none)
    (hadds : ∀ k, (Store.row writes k).isSome → Lockable indexed db k) :
    OpenTx.Alone indexed (writes ++ db) body o := by
  induction h with
  | refl => exact .refl
  | @tail o₁ o₂ _ hnext ih =>
    refine .tail (ih fun k hk => hlocked k (hnext.locks_subset hk)) ?_
    cases hnext with
    | @lock k next locks writes₁ hlockable =>
      have hrow : Store.row (writes₁ ++ (writes ++ db)) k = Store.row (writes₁ ++ db) k := by
        rw [Store.row_append, Store.row_append_of_none _ _ _ (hlocked k List.mem_cons_self),
          Store.row_append]
      rw [← hrow]
      refine .lock ?_
      unfold Lockable
      rw [hrow]
      exact hlockable
    | @miss k next locks writes₁ hmiss =>
      refine .miss ?_
      rintro (hindexed | hrow)
      · exact hmiss (.inl hindexed)
      · rw [Store.row_append, Store.row_append, Option.isSome_or, Option.isSome_or,
          Bool.or_eq_true, Bool.or_eq_true] at hrow
        refine hmiss ?_
        unfold Lockable
        rw [Store.row_append, Option.isSome_or, Bool.or_eq_true]
        obtain hrow | hrow | hrow := hrow
        · exact .inr (.inl hrow)
        · exact (hadds k hrow).imp id .inr
        · exact .inr (.inr hrow)
    | put => exact .put

end Alone

/-! ## Together -/

/-- The committed rows, and the transaction that each session has open. -/
structure Sessions (ι : Type) (ν : κ → Type) (ε : Type) where
  db : Store ν
  txns : ι → Option (OpenTx ν ε)

namespace Sessions

variable {ι : Type}

/-- No transaction is open. -/
def idle (db : Store ν) : Sessions ι ν ε := { db := db, txns := fun _ => none }

/-- No other session holds the lock of `k`. -/
def Free (s : Sessions ι ν ε) (i : ι) (k : κ) : Prop :=
  ∀ j o, j ≠ i → s.txns j = some o → k ∉ o.locks

/-- Session `i` waits for the lock of a key in `P`, which session `j` holds. -/
def Waits (s : Sessions ι ν ε) (P : κ → Prop) (i j : ι) : Prop :=
  i ≠ j ∧ ∃ o o' k, s.txns i = some o ∧ s.txns j = some o' ∧ P k ∧ o.rest.wants = some k ∧
    k ∈ o'.locks

/-- A circle of sessions, each waiting for the next. -/
def WaitCycle (s : Sessions ι ν ε) (P : κ → Prop) : Prop := ∃ i, TransGen (s.Waits P) i i

variable [DecidableEq ι]

def set (s : Sessions ι ν ε) (i : ι) (o : Option (OpenTx ν ε)) : Sessions ι ν ε :=
  { s with txns := Function.update s.txns i o }

/-- One statement of one transaction, once the locks it needs are free; or the
beginning or the end of one. -/
inductive Step (indexed : κ → Prop) (body : ι → Tx ν ε Unit) :
    Sessions ι ν ε → Sessions ι ν ε → Prop
  | begin {s : Sessions ι ν ε} {i : ι} : s.txns i = none →
      Step indexed body s (s.set i (some ⟨body i, [], []⟩))
  | statement {s : Sessions ι ν ε} {i : ι} {o o' : OpenTx ν ε} : s.txns i = some o →
      OpenTx.Next indexed s.db o o' → (∀ k ∈ o'.locks, s.Free i k) →
      Step indexed body s (s.set i (some o'))
  | commit {s : Sessions ι ν ε} {i : ι} {locks : List κ} {writes : Store ν} :
      s.txns i = some ⟨.pure (), locks, writes⟩ →
      Step indexed body s { db := writes ++ s.db, txns := Function.update s.txns i none }
  /-- an error of its own or of the database, or a crash -/
  | abort {s : Sessions ι ν ε} {i : ι} {o : OpenTx ν ε} : s.txns i = some o →
      Step indexed body s (s.set i none)

/-- The states that the transactions can get to over the rows `db`. -/
def Reach (indexed : κ → Prop) (body : ι → Tx ν ε Unit) (db : Store ν) (s : Sessions ι ν ε) : Prop :=
  ReflTransGen (Step indexed body) (idle db) s

/-- What holds of the open transactions of every reachable state. -/
structure Inv (indexed : κ → Prop) (body : ι → Tx ν ε Unit) (s : Sessions ι ν ε) : Prop where
  alone : ∀ i o, s.txns i = some o → OpenTx.Alone indexed s.db (body i) o
  disjoint : ∀ i j o o', i ≠ j → s.txns i = some o → s.txns j = some o' → ∀ k ∈ o.locks, k ∉ o'.locks

section Invariant

variable {indexed : κ → Prop} {body : ι → Tx ν ε Unit} {db : Store ν} {s s' : Sessions ι ν ε} {i : ι}

/-- Session `i` goes on, with locks that are free. -/
theorem Inv.set (hs : Inv indexed body s) {o : OpenTx ν ε}
    (ho : OpenTx.Alone indexed s.db (body i) o) (hfree : ∀ k ∈ o.locks, s.Free i k) :
    Inv indexed body (s.set i (some o)) where
  alone := by
    intro j o' hj
    obtain ⟨rfl, heq⟩ | ⟨-, hj⟩ := update_eq_some hj
    · cases heq
      exact ho
    · exact hs.alone j o' hj
  disjoint := by
    intro j j' o₁ o₂ hne h₁ h₂ k hk
    obtain ⟨rfl, heq⟩ | ⟨hji, hj⟩ := update_eq_some h₁
    · cases heq
      obtain ⟨rfl, -⟩ | ⟨hji', hj'⟩ := update_eq_some h₂
      · exact absurd rfl hne
      · exact hfree k hk j' o₂ hji' hj'
    · obtain ⟨rfl, heq⟩ | ⟨-, hj'⟩ := update_eq_some h₂
      · cases heq
        exact fun hk' => hfree k hk' j o₁ hji hj hk
      · exact hs.disjoint j j' o₁ o₂ hne hj hj' k hk

/-- Session `i` ends, with the rows it leaves. -/
theorem Inv.leave (hs : Inv indexed body s) (writes : Store ν)
    (hlocked : ∀ j o, j ≠ i → s.txns j = some o → ∀ k ∈ o.locks, Store.row writes k = none)
    (hadds : ∀ k, (Store.row writes k).isSome → Lockable indexed s.db k) :
    Inv indexed body { db := writes ++ s.db, txns := Function.update s.txns i none } where
  alone := by
    intro j o hj
    obtain ⟨-, heq⟩ | ⟨hji, hj⟩ := update_eq_some hj
    · nomatch heq
    · exact (hs.alone j o hj).frame (hlocked j o hji hj) hadds
  disjoint := by
    intro j j' o o' hne h₁ h₂
    obtain ⟨-, heq⟩ | ⟨-, hj⟩ := update_eq_some h₁
    · nomatch heq
    obtain ⟨-, heq⟩ | ⟨-, hj'⟩ := update_eq_some h₂
    · nomatch heq
    exact hs.disjoint j j' o o' hne hj hj'

theorem Inv.step (hbody : ∀ i, (body i).Updates indexed []) (hs : Inv indexed body s)
    (h : Step indexed body s s') : Inv indexed body s' := by
  cases h with
  | begin _ => exact hs.set .refl nofun
  | statement ho hnext hfree => exact hs.set (.tail (hs.alone _ _ ho) hnext) hfree
  | @commit i locks writes ho =>
    have hsound := sound_of_next (hs.alone i _ ho) (sound_begin (hbody i))
    refine hs.leave writes (fun j o hji hj k hk => ?_) fun k hk => ?_
    · rw [← Option.not_isSome_iff_eq_none]
      intro hwritten
      exact hs.disjoint j i o _ hji hj ho k hk (hsound.written k hwritten)
    · exact hsound.lockable k (hsound.written k hk)
  | @abort i o ho => exact hs.leave [] (fun _ _ _ _ _ _ => rfl) nofun

theorem Reach.inv (hbody : ∀ i, (body i).Updates indexed []) (h : Reach indexed body db s) :
    Inv indexed body s := by
  induction h with
  | refl => exact ⟨nofun, nofun⟩
  | tail _ hstep ih => exact ih.step hbody hstep

/-- A transaction that goes some way alone goes there beside others, where it
needs none of their locks. -/
theorem reach_alone {o : OpenTx ν ε} (hidle : s.txns i = none)
    (h : OpenTx.Alone indexed s.db (body i) o) (hfree : ∀ k ∈ o.locks, s.Free i k) :
    ReflTransGen (Step indexed body) s (s.set i (some o)) := by
  induction h with
  | refl => exact .single (.begin hidle)
  | @tail o₁ o₂ _ hnext ih =>
    have hstep : Step indexed body (s.set i (some o₁)) ((s.set i (some o₁)).set i (some o₂)) := by
      refine .statement (Function.update_self i _ _) hnext fun k hk j o' hji hj => ?_
      obtain ⟨rfl, -⟩ | ⟨-, hj⟩ := update_eq_some hj
      · exact absurd rfl hji
      · exact hfree k hk j o' hji hj
    have hset : (s.set i (some o₁)).set i (some o₂) = s.set i (some o₂) := by
      simp [Sessions.set]
    rw [hset] at hstep
    exact .tail (ih fun k hk => hfree k (hnext.locks_subset hk)) hstep

end Invariant

section Finite

variable [Fintype ι] {indexed : κ → Prop} {body : ι → Tx ν ε Unit} {db : Store ν}
  {s : Sessions ι ν ε}

/-- Every open transaction may abort. -/
theorem Reach.abortAll (h : Reach indexed body db s) : Reach indexed body db (idle s.db) := by
  -- one after another
  suffices hall : ∀ ended : Finset ι, Reach indexed body db
      { s with txns := ended.piecewise (fun _ => none) s.txns } by
    have hend := hall Finset.univ
    rw [Finset.piecewise_univ] at hend
    exact hend
  intro ended
  induction ended using Finset.induction_on with
  | empty =>
    rw [Finset.piecewise_empty]
    exact h
  | @insert i ended _ ih =>
    rw [Finset.piecewise_insert]
    cases ho : ended.piecewise (fun _ => none) s.txns i with
    | none =>
      rw [Function.update_eq_self_iff.mpr ho.symm]
      exact ih
    | some o => exact ih.tail (.abort ho)

/-- Transactions that go some way alone, no two of them with a lock in common,
can all be there at once. -/
theorem reach_together {txns : ι → Option (OpenTx ν ε)}
    (hs : Inv indexed body { db := db, txns := txns }) :
    Reach indexed body db { db := db, txns := txns } := by
  suffices hall : ∀ started : Finset ι, Reach indexed body db
      { db := db, txns := started.piecewise txns fun _ => none } by
    have hend := hall Finset.univ
    rw [Finset.piecewise_univ] at hend
    exact hend
  intro started
  induction started using Finset.induction_on with
  | empty =>
    rw [Finset.piecewise_empty]
    exact .refl
  | @insert i started hi ih =>
    rw [Finset.piecewise_insert]
    have hidle : started.piecewise txns (fun _ => none) i = none :=
      Finset.piecewise_eq_of_notMem started txns _ hi
    cases ho : txns i with
    | none =>
      rw [Function.update_eq_self_iff.mpr hidle.symm]
      exact ih
    | some o =>
      refine ih.trans (reach_alone hidle (hs.alone i o ho) fun k hk j o' hji hj => ?_)
      have hj' : txns j = some o' := by
        change started.piecewise txns (fun _ => none) j = some o' at hj
        by_cases hmem : j ∈ started
        · rwa [Finset.piecewise_eq_of_mem _ _ _ hmem] at hj
        · rw [Finset.piecewise_eq_of_notMem _ _ _ hmem] at hj
          nomatch hj
      exact hs.disjoint i j o o' hji.symm ho hj' k hk

/-- **A wait cycle is a matter of transactions run alone**, over rows that some
run commits. -/
theorem waitCycle_iff (hbody : ∀ i, (body i).Updates indexed []) (P : κ → Prop) :
    (∃ s, Reach indexed body db s ∧ s.WaitCycle P) ↔ ∃ s txns, Reach indexed body db s ∧
      Inv indexed body { db := s.db, txns := txns } ∧
      WaitCycle { db := s.db, txns := txns } P := by
  constructor
  · rintro ⟨s, hreach, hcycle⟩
    exact ⟨s, s.txns, hreach, hreach.inv hbody, hcycle⟩
  · rintro ⟨s, txns, hreach, hinv, hcycle⟩
    exact ⟨_, hreach.abortAll.trans (reach_together hinv), hcycle⟩

end Finite

/-- Everyone in a circle waits for someone. -/
theorem transGen_waiting {α : Type} {r : α → α → Prop} {a b : α} (h : TransGen r a b)
    (hb : ∃ c, r b c) : TransGen (fun x y => r x y ∧ ∃ z, r y z) a b := by
  induction h using TransGen.head_induction_on with
  | single hab => exact .single ⟨hab, hb⟩
  | head hac hcb ih =>
    obtain ⟨d, hcd, -⟩ := TransGen.head'_iff.mp hcb
    exact .head ⟨hac, d, hcd⟩ ih

end Sessions

end Concurrency
