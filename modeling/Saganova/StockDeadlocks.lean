import Mathlib.Data.Fintype.Basic
import Saganova.Concurrency.WaitCycles
import Saganova.ServiceProtocol

/-!
# Deadlocks over the stock

A ReserveStock or ReleaseInventory transaction takes the locks of its lines' SKU
rows in the order of the lines.  Two that visit the same SKUs in different orders
can wait for each other (`stockDeadlock_fails`).

`StopsAt` is how far a transaction gets by itself: to a line, with all lines
before it visited.  A wait cycle can come about exactly where transactions can stop at
lines such that no two of them hold the same SKU, and each is at a SKU that
the next one holds (`Entangled`, `stockDeadlock`).  Where all visit their SKUs in
one order there is none (`not_entangled`).
-/

namespace Saganova

open Concurrency Relation

/-! ## The transactions -/

inductive StockTransaction where
  | reserve (command : ReserveStockCommand) (reservationId : Uuid) (time : Time) (ids : ℕ → Uuid)
  | release (aggregate : StockAggregate) (correlationId : String) (time : Time) (ids : ℕ → Uuid)

/-- An entry of a unique index is locked before there is a row; a stock level is not. -/
def Key.Indexed : Key → Prop
  | .stockLevel _ => False
  | _ => True

namespace StockTransaction

def body : StockTransaction → DbTx Unit
  | .reserve command reservationId time ids =>
    ReserveStockHandler.transaction command reservationId time ids
  | .release aggregate correlationId time ids =>
    ReleaseInventoryHandler.transaction aggregate correlationId time ids

def lines : StockTransaction → List ReservationLine
  | .reserve command _ _ _ => command.lines
  | .release aggregate _ _ _ => aggregate.state.lines

/-- The visit that first needs the lock of a line's SKU. -/
def visitLine : StockTransaction → ReservationLine → DbTx Unit
  | .reserve _ _ _ _, line => StockRepository.checkLine line
  | .release _ _ _ _, line => StockRepository.decrement line.sku line.qty

def visitLines : StockTransaction → List ReservationLine → DbTx Unit
  | .reserve _ _ _ _, lines => StockRepository.checkLines lines
  | .release _ _ _ _, lines => StockRepository.releaseLinesWithinTransaction lines

/-- What follows once all lines are visited. -/
def finish : StockTransaction → DbTx Unit
  | .reserve command reservationId time ids => do
    StockRepository.incrementLines command.lines
    InventoryEventStoreRepository.saveWithinTransaction
      (StockAggregate.reserved command.orderId reservationId command.lines time)
      command.correlationId ids
  | .release aggregate correlationId time ids =>
    match StockAggregate.release aggregate time with
    | .error err => throw err
    | .ok aggregate =>
      InventoryEventStoreRepository.saveWithinTransaction aggregate correlationId ids

/-- The SKUs that are visited once more at the end. -/
def revisited : StockTransaction → List String
  | .reserve command _ _ _ => command.lines.map (·.sku)
  | .release _ _ _ _ => []

end StockTransaction

/-! ## Deadlocks -/

/-- Any number of transactions over the rows `db`. -/
def StockReach {n : ℕ} (tx : Fin n → StockTransaction) (db : Db)
    (s : Sessions (Fin n) Row Err) : Prop :=
  Sessions.Reach Key.Indexed (fun i => (tx i).body) db s

def Key.IsStock (k : Key) : Prop := ∃ sku, k = .stockLevel sku

/-- Transactions that wait for SKU rows in a circle. -/
def StockWaitCycle {n : ℕ} (s : Sessions (Fin n) Row Err) : Prop := s.WaitCycle Key.IsStock

/-- A transaction that has visited some lines and is at the next one. -/
structure Stop where
  visited : List ReservationLine
  line : ReservationLine

/-- The SKU has a row, and was visited. -/
def Stop.Holds (db : Db) (stop : Stop) (sku : String) : Prop :=
  (Store.row db (.stockLevel sku)).isSome ∧ sku ∈ stop.visited.map (·.sku)

/-- By itself the transaction gets to the stop. -/
def StopsAt (db : Db) (t : StockTransaction) (stop : Stop) : Prop :=
  (∃ rest, t.lines = stop.visited ++ stop.line :: rest) ∧
    ∃ db', Tx.Runs db (t.visitLines stop.visited) () db'

/-- The transactions can stop so that no two hold the same SKU, and in a circle
each is at a SKU that the next one holds. -/
structure Entangled {n : ℕ} (tx : Fin n → StockTransaction) (db : Db)
    (stop : Fin n → Option Stop) : Prop where
  stops : ∀ i a, stop i = some a → StopsAt db (tx i) a
  disjoint : ∀ i j a b sku, i ≠ j → stop i = some a → stop j = some b → a.Holds db sku →
    ¬ b.Holds db sku
  cycle : ∃ i, TransGen (fun i j => i ≠ j ∧ ∃ a b, stop i = some a ∧ stop j = some b ∧
    b.Holds db a.line.sku) i i

/-! ## The statements of a transaction -/

section Body

variable {P : Key → Prop}

theorem touches_insert {k : Key} {row : Row k} (hk : P k) : (insert k row).Touches P := by
  refine ⟨hk, ?_⟩
  rintro (- | old)
  · exact ⟨hk, trivial⟩
  · trivial

theorem touches_appendEvents (hP : ∀ k : Key, k.Indexed → P k) (svc : Service)
    (id correlationId : String) (ids : ℕ → Uuid) (sequence : ℕ)
    (events : List (UncommittedEvent svc.Event)) :
    (appendEvents svc id correlationId ids sequence events).Touches P := by
  induction events generalizing sequence with
  | nil => trivial
  | cons evt events ih =>
    refine (touches_insert (hP (.eventStore _ _ _) trivial)).bind fun _ => ?_
    exact (touches_insert (hP (.outbox _ _) trivial)).bind fun _ => ih (sequence + 1)

/-- A save needs no SKU row. -/
theorem touches_saveWithinTransaction (hP : ∀ k : Key, k.Indexed → P k)
    (aggregate : StockAggregate) (correlationId : String) (ids : ℕ → Uuid) :
    (InventoryEventStoreRepository.saveWithinTransaction aggregate correlationId ids).Touches P := by
  unfold InventoryEventStoreRepository.saveWithinTransaction
  split
  · trivial
  · refine Tx.Touches.mapError ?_ _
    have hprojection := hP (.projection .inventory aggregate.id) trivial
    refine (touches_appendEvents hP .inventory _ _ _ _ _).bind fun _ => ⟨hprojection, ?_⟩
    rintro (- | old)
    · exact touches_insert hprojection
    · exact ⟨hprojection, trivial⟩

theorem touches_updateReserved {sku : String} {f : ℤ → Num} (hsku : P (.stockLevel sku)) :
    (StockRepository.updateReserved sku f).Touches P := by
  refine ⟨hsku, ?_⟩
  rintro (- | row)
  · trivial
  · show Tx.Touches P (if _ then _ else _)
    split
    · exact ⟨hsku, trivial⟩
    · trivial

theorem touches_incrementLines {lines : List ReservationLine}
    (hlines : ∀ line ∈ lines, P (.stockLevel line.sku)) :
    (StockRepository.incrementLines lines).Touches P := by
  induction lines with
  | nil => trivial
  | cons line lines ih =>
    obtain ⟨hline, hlines⟩ := List.forall_mem_cons.mp hlines
    exact (touches_updateReserved hline).bind fun _ => ih hlines

theorem updates_updateReserved {sku : String} {f : ℤ → Num} :
    (StockRepository.updateReserved sku f).Updates Key.Indexed [] := by
  refine ⟨trivial, fun row => ?_⟩
  show Tx.Updates Key.Indexed _ (if _ then _ else _)
  split
  · exact ⟨.inr List.mem_cons_self, trivial⟩
  · trivial

theorem updates_incrementLines (lines : List ReservationLine) :
    (StockRepository.incrementLines lines).Updates Key.Indexed [] := by
  induction lines with
  | nil => trivial
  | cons line lines ih => exact updates_updateReserved.bind fun _ => ih

end Body

namespace StockTransaction

variable (t : StockTransaction)

theorem body_eq : t.body = (do t.visitLines t.lines; t.finish) := by
  cases t with
  | reserve command reservationId time ids =>
    exact Tx.bind_bind _ _ _
  | release aggregate correlationId time ids => rfl

theorem visitLines_cons (line : ReservationLine) (lines : List ReservationLine) :
    t.visitLines (line :: lines) = (do t.visitLine line; t.visitLines lines) := by
  cases t <;> rfl

/-- The end of a transaction needs only SKU rows that were visited. -/
theorem finish_touches :
    t.finish.Touches fun k => ∀ sku, k = .stockLevel sku → sku ∈ t.revisited := by
  have hindexed : ∀ k : Key, k.Indexed → ∀ sku, k = .stockLevel sku → sku ∈ t.revisited := by
    rintro k hk sku rfl
    exact hk.elim
  cases t with
  | reserve command reservationId time ids =>
    refine (touches_incrementLines fun line hline sku heq => ?_).bind fun _ =>
      touches_saveWithinTransaction hindexed _ _ _
    obtain rfl := Key.stockLevel.inj heq
    exact List.mem_map_of_mem hline
  | release aggregate correlationId time ids =>
    rw [finish]
    split
    · trivial
    · exact touches_saveWithinTransaction hindexed _ _ _

theorem visitLine_updates (line : ReservationLine) :
    (t.visitLine line).Updates Key.Indexed [] := by
  cases t with
  | reserve command reservationId time ids =>
    unfold visitLine StockRepository.checkLine
    refine ⟨True.intro, fun row => ?_⟩
    simp only
    split
    · exact True.intro
    · exact True.intro
  | release aggregate correlationId time ids =>
    unfold visitLine StockRepository.decrement
    exact updates_updateReserved

theorem visitLines_updates (lines : List ReservationLine) :
    (t.visitLines lines).Updates Key.Indexed [] := by
  induction lines with
  | nil => cases t <;> trivial
  | cons line lines ih =>
    rw [t.visitLines_cons]
    exact (t.visitLine_updates line).bind fun _ => ih

theorem finish_updates : t.finish.Updates Key.Indexed [] := by
  have hsave : ∀ aggregate correlationId ids,
      (InventoryEventStoreRepository.saveWithinTransaction aggregate correlationId ids).Updates
        Key.Indexed [] :=
    fun _ _ _ => (touches_saveWithinTransaction (fun _ => id) _ _ _).updates
  cases t with
  | reserve command reservationId time ids =>
    exact (updates_incrementLines command.lines).bind fun _ => hsave _ _ _
  | release aggregate correlationId time ids =>
    rw [finish]
    split
    · trivial
    · exact hsave _ _ _

theorem body_updates : t.body.Updates Key.Indexed [] := by
  rw [t.body_eq]
  exact (t.visitLines_updates t.lines).bind fun _ => t.finish_updates

end StockTransaction

/-! ## The visit of a line -/

section Visit

variable {db : Db} {t : StockTransaction} {line : ReservationLine} {rest : DbTx Unit}
  {locks locks' : List Key} {writes writes' : Db} {o : OpenTx Row Err}

/-- The line was visited: its SKU is locked if it has a row. -/
structure Visited (db : Db) (t : StockTransaction) (line : ReservationLine) (locks : List Key)
    (writes : Db) (locks' : List Key) (writes' : Db) : Prop where
  runs : Tx.Runs (writes ++ db) (t.visitLine line) () (writes' ++ db)
  locks : ∀ k, k ∈ locks' ↔
    k ∈ locks ∨ k = .stockLevel line.sku ∧ (Store.row db k).isSome

/-- The transaction waits for no SKU that others hold. -/
def Unblocked (o : OpenTx Row Err) : Prop := ∀ k, o.rest.wants = some k → k ∈ o.locks

/-- A transaction sees the SKU rows there are. -/
theorem lockable_stock (hsound : OpenTx.Sound Key.Indexed db o) (sku : String) :
    Lockable Key.Indexed (o.writes ++ db) (.stockLevel sku) ↔
      (Store.row db (.stockLevel sku)).isSome := by
  have hwritten : (Store.row o.writes (.stockLevel sku)).isSome →
      (Store.row db (.stockLevel sku)).isSome := fun h =>
    (hsound.lockable _ (hsound.written _ h)).resolve_left id
  unfold Lockable
  rw [Store.row_append, Option.isSome_or, Bool.or_eq_true]
  constructor
  · rintro (hindexed | hrow | hrow)
    · exact hindexed.elim
    · exact hwritten hrow
    · exact hrow
  · exact fun hrow => .inr (.inr hrow)

theorem lockable_of_row {rows : Db} {sku : String} {row : StockLevelRow}
    (hrow : Store.row rows (.stockLevel sku) = some row) :
    Lockable Key.Indexed rows (.stockLevel sku) := by
  right
  rw [hrow]
  rfl

theorem row_of_not_lockable {rows : Db} {sku : String} :
    ¬ Lockable Key.Indexed rows (.stockLevel sku) ↔ Store.row rows (.stockLevel sku) = none := by
  rw [← Option.not_isSome_iff_eq_none, not_iff_not]
  exact or_iff_right id

/-- A transaction that has thrown goes nowhere. -/
theorem next_throw {e : Err} (h : ReflTransGen (OpenTx.Next Key.Indexed db)
    ⟨(throw e : DbTx Unit), locks, writes⟩ o) : Unblocked o := by
  obtain rfl | ⟨o₁, hnext, -⟩ := h.cases_head
  · exact nofun
  · nomatch hnext

theorem mem_locked {sku : String} (hrow : (Store.row db (.stockLevel sku)).isSome) (k : Key) :
    k ∈ .stockLevel sku :: locks ↔ k ∈ locks ∨ k = .stockLevel sku ∧ (Store.row db k).isSome := by
  rw [List.mem_cons]
  constructor
  · rintro (rfl | hk)
    · exact .inr ⟨rfl, hrow⟩
    · exact .inl hk
  · rintro (hk | ⟨rfl, -⟩)
    · exact .inr hk
    · exact .inl rfl

section

variable (hsound : OpenTx.Sound Key.Indexed db ⟨do t.visitLine line; rest, locks, writes⟩)

include hsound

/-- A visit that locks the row of its SKU. -/
theorem visited_locked (hfound : Lockable Key.Indexed (writes ++ db) (.stockLevel line.sku))
    (hruns : Tx.Runs (writes ++ db) (t.visitLine line) () (writes' ++ db)) :
    Visited db t line locks writes (.stockLevel line.sku :: locks) writes' :=
  ⟨hruns, mem_locked ((lockable_stock hsound line.sku).mp hfound)⟩

/-- A visit that also writes it. -/
theorem visited_written (hfound : Lockable Key.Indexed (writes ++ db) (.stockLevel line.sku))
    (hruns : Tx.Runs (writes ++ db) (t.visitLine line) () (writes' ++ db)) :
    Visited db t line locks writes (.stockLevel line.sku :: .stockLevel line.sku :: locks)
      writes' := by
  refine ⟨hruns, fun k => ?_⟩
  rw [← mem_locked ((lockable_stock hsound line.sku).mp hfound), List.mem_cons,
    or_iff_right_of_imp]
  rintro rfl
  exact List.mem_cons_self

/-- A visit that finds no row. -/
theorem visited_missed (hmiss : ¬ Lockable Key.Indexed (writes ++ db) (.stockLevel line.sku))
    (hruns : Tx.Runs (writes ++ db) (t.visitLine line) () (writes ++ db)) :
    Visited db t line locks writes locks writes := by
  refine ⟨hruns, fun k => ?_⟩
  rw [or_iff_left]
  rintro ⟨rfl, hrow⟩
  exact hmiss ((lockable_stock hsound line.sku).mpr hrow)

end

theorem runs_decrement {db' : Db} :
    Tx.Runs db (StockRepository.decrement line.sku line.qty) () db' ↔
      Store.row db (.stockLevel line.sku) = none ∧ db' = db ∨
      ∃ row : StockLevelRow, Store.row db (.stockLevel line.sku) = some row ∧
        Int4 (roundNumeric (row.qtyReserved - line.qty)) ∧ db' = ⟨.stockLevel line.sku,
          { row with qtyReserved := roundNumeric (row.qtyReserved - line.qty) }⟩ :: db :=
  runs_updateReserved (f := fun n => n - line.qty)

/-- How far a transaction gets with one line: not past the lock of its SKU, not
past the visit, or to what follows. -/
theorem visitLine_cases
    (hsound : OpenTx.Sound Key.Indexed db ⟨do t.visitLine line; rest, locks, writes⟩)
    (h : ReflTransGen (OpenTx.Next Key.Indexed db) ⟨do t.visitLine line; rest, locks, writes⟩ o) :
    o = ⟨do t.visitLine line; rest, locks, writes⟩ ∨ Unblocked o ∨
      ∃ locks' writes', Visited db t line locks writes locks' writes' ∧
        OpenTx.Sound Key.Indexed db ⟨rest, locks', writes'⟩ ∧
        ReflTransGen (OpenTx.Next Key.Indexed db) ⟨rest, locks', writes'⟩ o := by
  obtain heq | ⟨o₁, hnext, hrest⟩ := h.cases_head
  · exact .inl heq.symm
  refine .inr ?_
  have hsound₁ := hnext.sound hsound
  cases t with
  | reserve command reservationId time ids =>
    cases hnext with
    | lock hfound =>
      obtain ⟨row, hrow⟩ := Option.isSome_iff_exists.mp (hfound.resolve_left id)
      rw [hrow] at hrest hsound₁
      by_cases hlt : ((row.qtyAvailable - row.qtyReserved : ℤ) : Num) < line.qty
      · simp only [if_pos hlt] at hrest
        exact .inl (next_throw hrest)
      · simp only [if_neg hlt] at hrest hsound₁
        have hruns : Tx.Runs (writes ++ db) (StockRepository.checkLine line) () (writes ++ db) :=
          runs_checkLine.mpr ⟨rfl, row, hrow, not_lt.mp hlt⟩
        exact .inr ⟨_, writes, visited_locked hsound hfound hruns, hsound₁, hrest⟩
    | miss hmiss => exact .inl (next_throw hrest)
  | release aggregate correlationId time ids =>
    cases hnext with
    | lock hfound =>
      obtain ⟨row, hrow⟩ := Option.isSome_iff_exists.mp (hfound.resolve_left id)
      rw [hrow] at hrest hsound₁
      by_cases hint : Int4 (roundNumeric (row.qtyReserved - line.qty))
      · simp only [if_pos hint] at hrest hsound₁
        -- the UPDATE holds the lock when it writes
        obtain rfl | ⟨o₂, hnext, hrest⟩ := hrest.cases_head
        · refine .inl fun k hk => ?_
          obtain rfl := Option.some.inj hk
          exact List.mem_cons_self
        have hsound₂ := hnext.sound hsound₁
        cases hnext
        have hruns := runs_decrement.mpr (.inr ⟨row, hrow, hint, rfl⟩)
        exact .inr ⟨_, ⟨.stockLevel line.sku, _⟩ :: writes, visited_written hsound hfound hruns,
          hsound₂, hrest⟩
      · simp only [if_neg hint] at hrest
        exact .inl (next_throw hrest)
    | miss hmiss =>
      have hruns := runs_decrement.mpr (.inl ⟨row_of_not_lockable.mp hmiss, rfl⟩)
      exact .inr ⟨locks, writes, visited_missed hsound hmiss hruns, hsound₁, hrest⟩

/-- Alone, a transaction gets past a line that it can visit. -/
theorem next_of_runs {db' : Db}
    (hsound : OpenTx.Sound Key.Indexed db ⟨do t.visitLine line; rest, locks, writes⟩)
    (h : Tx.Runs (writes ++ db) (t.visitLine line) () db') :
    ∃ locks' writes', db' = writes' ++ db ∧ Visited db t line locks writes locks' writes' ∧
      ReflTransGen (OpenTx.Next Key.Indexed db) ⟨do t.visitLine line; rest, locks, writes⟩
        ⟨rest, locks', writes'⟩ := by
  cases t with
  | reserve command reservationId time ids =>
    obtain ⟨rfl, row, hrow, hle⟩ := runs_checkLine.mp h
    have hfound := lockable_of_row hrow
    have hnext : OpenTx.Next Key.Indexed db
        ⟨do (StockTransaction.reserve command reservationId time ids).visitLine line; rest, locks, writes⟩ _ :=
      .lock hfound
    rw [hrow] at hnext
    simp only [if_neg (not_lt.mpr hle)] at hnext
    exact ⟨_, writes, rfl, visited_locked hsound hfound h, .single hnext⟩
  | release aggregate correlationId time ids =>
    obtain ⟨hrow, rfl⟩ | ⟨row, hrow, hint, rfl⟩ := runs_decrement.mp h
    · have hmiss := row_of_not_lockable.mpr hrow
      exact ⟨locks, writes, rfl, visited_missed hsound hmiss h, .single (.miss hmiss)⟩
    · have hfound := lockable_of_row hrow
      have hnext : OpenTx.Next Key.Indexed db
          ⟨do (StockTransaction.release aggregate correlationId time ids).visitLine line; rest, locks, writes⟩ _ :=
        .lock hfound
      rw [hrow] at hnext
      simp only [if_pos hint] at hnext
      exact ⟨_, ⟨.stockLevel line.sku, _⟩ :: writes, rfl, visited_written hsound hfound h,
        .head hnext (.single .put)⟩

theorem wants_visitLine : (do t.visitLine line; rest : DbTx Unit).wants =
    some (.stockLevel line.sku) := by
  cases t <;> rfl

/-- A SKU that is visited once more is locked by its first visit. -/
theorem Visited.revisited (h : Visited db t line locks writes locks' writes')
    (hsound : OpenTx.Sound Key.Indexed db ⟨do t.visitLine line; rest, locks, writes⟩)
    (hsku : line.sku ∈ t.revisited) : .stockLevel line.sku ∈ locks' := by
  cases t with
  | reserve command reservationId time ids =>
    obtain ⟨-, row, hrow, -⟩ := runs_checkLine.mp h.runs
    exact (h.locks _).mpr
      (.inr ⟨rfl, (lockable_stock hsound line.sku).mp (lockable_of_row hrow)⟩)
  | release aggregate correlationId time ids => nomatch hsku

end Visit

/-! ## The visit of all lines -/

section Visits

variable {db : Db} {t : StockTransaction} {lines visited : List ReservationLine}
  {locks locks' : List Key} {writes : Db} {o : OpenTx Row Err}

/-- The SKU row of one of the lines. -/
def RowOf (db : Db) (lines : List ReservationLine) (k : Key) : Prop :=
  (∃ line ∈ lines, k = .stockLevel line.sku) ∧ (Store.row db k).isSome

theorem not_rowOf_nil (k : Key) : ¬ RowOf db [] k := by
  rintro ⟨⟨line, hline, -⟩, -⟩
  nomatch hline

theorem rowOf_cons {line : ReservationLine} {k : Key} : RowOf db (line :: lines) k ↔
    (k = .stockLevel line.sku ∧ (Store.row db k).isSome) ∨ RowOf db lines k := by
  unfold RowOf
  rw [List.exists_mem_cons_iff]
  tauto

theorem Stop.holds_iff {stop : Stop} {sku : String} :
    stop.Holds db sku ↔ RowOf db stop.visited (.stockLevel sku) := by
  unfold Stop.Holds RowOf
  rw [List.mem_map, and_comm]
  constructor
  · rintro ⟨⟨line, hline, rfl⟩, hrow⟩
    exact ⟨⟨line, hline, rfl⟩, hrow⟩
  · rintro ⟨⟨line, hline, heq⟩, hrow⟩
    exact ⟨⟨line, hline, (Key.stockLevel.inj heq).symm⟩, hrow⟩

theorem visits_bind (line : ReservationLine) : (do t.visitLines (line :: lines); t.finish) =
    (do t.visitLine line; do t.visitLines lines; t.finish : DbTx Unit) := by
  rw [t.visitLines_cons]
  exact Tx.bind_bind _ _ _

theorem visits_nil : (do t.visitLines []; t.finish) = t.finish := by
  cases t <;> rfl

theorem runs_visitLines_nil {db' : Db} : Tx.Runs db (t.visitLines []) () db' ↔ db' = db := by
  cases t <;> exact Tx.runs_pure.trans (by simp)

/-- A transaction that needs the lock of a SKU it does not hold has visited the
lines before one of that SKU, and holds their rows. -/
theorem stop_of_next (hsound : OpenTx.Sound Key.Indexed db ⟨do t.visitLines lines; t.finish, locks, writes⟩)
    (hvisited : ∀ sku ∈ t.revisited, .stockLevel sku ∈ locks ∨ sku ∈ lines.map (·.sku))
    (h : ReflTransGen (OpenTx.Next Key.Indexed db)
      ⟨do t.visitLines lines; t.finish, locks, writes⟩ o)
    {sku : String} (hwants : o.rest.wants = some (.stockLevel sku))
    (hfree : .stockLevel sku ∉ o.locks) :
    ∃ visited line rest, lines = visited ++ line :: rest ∧ line.sku = sku ∧
      (∃ db', Tx.Runs (writes ++ db) (t.visitLines visited) () db') ∧
      ∀ k, k ∈ o.locks ↔ k ∈ locks ∨ RowOf db visited k := by
  induction lines generalizing locks writes with
  | nil =>
    rw [visits_nil] at h
    have hsku := (touches_of_next h t.finish_touches).wants hwants sku rfl
    have hlocked := (hvisited sku hsku).resolve_right List.not_mem_nil
    exact absurd (locks_subset_of_next h hlocked) hfree
  | cons line lines ih =>
    rw [visits_bind] at h hsound
    obtain rfl | hunblocked | ⟨locks', writes', hvisit, hsound', hrest⟩ := visitLine_cases hsound h
    · obtain heq := Option.some.inj (wants_visitLine.symm.trans hwants)
      refine ⟨[], line, lines, rfl, Key.stockLevel.inj heq, ⟨_, runs_visitLines_nil.mpr rfl⟩, ?_⟩
      exact fun k => (or_iff_left (not_rowOf_nil k)).symm
    · exact absurd (hunblocked _ hwants) hfree
    · obtain ⟨visited, line', rest, rfl, hsku, ⟨db', hruns⟩, hlocks⟩ := ih hsound' (by
        intro sku' hsku'
        obtain hlocked | hmem := hvisited sku' hsku'
        · exact .inl ((hvisit.locks _).mpr (.inl hlocked))
        obtain rfl | hmem := List.mem_cons.mp hmem
        · exact .inl (hvisit.revisited hsound hsku')
        · exact .inr hmem) hrest
      refine ⟨line :: visited, line', rest, rfl, hsku, ⟨db', ?_⟩, fun k => ?_⟩
      · rw [t.visitLines_cons]
        exact Tx.runs_bind.mpr ⟨(), _, hvisit.runs, hruns⟩
      · rw [hlocks, hvisit.locks, rowOf_cons, or_assoc]

/-- Alone, a transaction visits the lines that it can visit, and holds their rows. -/
theorem next_of_visited {more : List ReservationLine} {db' : Db}
    (hsound : OpenTx.Sound Key.Indexed db
      ⟨do t.visitLines (visited ++ more); t.finish, locks, writes⟩)
    (h : Tx.Runs (writes ++ db) (t.visitLines visited) () db') :
    ∃ locks' writes', ReflTransGen (OpenTx.Next Key.Indexed db)
        ⟨do t.visitLines (visited ++ more); t.finish, locks, writes⟩
        ⟨do t.visitLines more; t.finish, locks', writes'⟩ ∧
      ∀ k, k ∈ locks' ↔ k ∈ locks ∨ RowOf db visited k := by
  induction visited generalizing locks writes with
  | nil => exact ⟨locks, writes, .refl, fun k => (or_iff_left (not_rowOf_nil k)).symm⟩
  | cons line visited ih =>
    rw [List.cons_append, visits_bind] at hsound ⊢
    rw [t.visitLines_cons] at h
    obtain ⟨_, db₁, hline, hlines⟩ := Tx.runs_bind.mp h
    obtain ⟨locks₁, writes₁, rfl, hvisit, hnext⟩ := next_of_runs hsound hline
    obtain ⟨locks', writes', hrest, hlocks⟩ := ih (sound_of_next hnext hsound) hlines
    refine ⟨locks', writes', hnext.trans hrest, fun k => ?_⟩
    rw [hlocks, hvisit.locks, rowOf_cons, or_assoc]

end Visits

/-! ## Deadlocks and stops -/

section Stops

variable {db : Db} {t : StockTransaction} {o : OpenTx Row Err}

/-- Alone, a transaction that needs a SKU it does not hold is at a stop. -/
theorem stop_of_alone (h : OpenTx.Alone Key.Indexed db t.body o) {sku : String}
    (hwants : o.rest.wants = some (.stockLevel sku)) (hfree : .stockLevel sku ∉ o.locks) :
    ∃ a : Stop, StopsAt db t a ∧ a.line.sku = sku ∧
      ∀ sku', .stockLevel sku' ∈ o.locks ↔ a.Holds db sku' := by
  have hsound : OpenTx.Sound Key.Indexed db ⟨t.body, [], []⟩ := sound_begin t.body_updates
  have hrevisited : ∀ sku ∈ t.revisited, .stockLevel sku ∈ ([] : List Key) ∨
      sku ∈ t.lines.map (·.sku) := by
    intro sku hsku
    cases t with
    | reserve command reservationId time ids => exact .inr hsku
    | release aggregate correlationId time ids => nomatch hsku
  unfold OpenTx.Alone at h
  rw [t.body_eq] at h hsound
  obtain ⟨visited, line, rest, hlines, hsku, hruns, hlocks⟩ :=
    stop_of_next hsound hrevisited h hwants hfree
  refine ⟨⟨visited, line⟩, ⟨⟨rest, hlines⟩, hruns⟩, hsku, fun sku' => ?_⟩
  rw [hlocks, Stop.holds_iff, or_iff_right List.not_mem_nil]

theorem alone_of_stop {a : Stop} (h : StopsAt db t a) :
    ∃ o : OpenTx Row Err, OpenTx.Alone Key.Indexed db t.body o ∧
      o.rest.wants = some (.stockLevel a.line.sku) ∧
      ∀ k, k ∈ o.locks ↔ RowOf db a.visited k := by
  obtain ⟨⟨rest, hlines⟩, db', hruns⟩ := h
  have hsound : OpenTx.Sound Key.Indexed db ⟨t.body, [], []⟩ := sound_begin t.body_updates
  unfold OpenTx.Alone
  rw [t.body_eq, hlines] at hsound ⊢
  obtain ⟨locks, writes, hnext, hlocks⟩ := next_of_visited hsound hruns
  refine ⟨_, hnext, ?_, fun k => ?_⟩
  · rw [visits_bind]
    exact wants_visitLine
  · rw [hlocks, or_iff_right List.not_mem_nil]

end Stops

section Entangled

variable {n : ℕ} {tx : Fin n → StockTransaction} {db : Db}

/-- A circle of waiting transactions is one of stops. -/
theorem entangled_of_cycle {txns : Fin n → Option (OpenTx Row Err)}
    (hs : Sessions.Inv Key.Indexed (fun i => (tx i).body) { db := db, txns := txns })
    (hcycle : StockWaitCycle { db := db, txns := txns }) : ∃ stop, Entangled tx db stop := by
  have hstop : ∀ i, ∃ x : Option Stop,
      (∀ a, x = some a → StopsAt db (tx i) a ∧ ∃ o, txns i = some o ∧
        o.rest.wants = some (.stockLevel a.line.sku) ∧
        ∀ sku, .stockLevel sku ∈ o.locks ↔ a.Holds db sku) ∧
      ∀ j, Sessions.Waits { db := db, txns := txns } Key.IsStock i j → x.isSome := by
    intro i
    by_cases hwait : ∃ j, Sessions.Waits { db := db, txns := txns } Key.IsStock i j
    · obtain ⟨j, hne, o, o', k, hi, hj, ⟨sku, rfl⟩, hwants, hk⟩ := hwait
      obtain ⟨a, hstops, rfl, hlocks⟩ :=
        stop_of_alone (hs.alone i o hi) hwants (hs.disjoint j i o' o hne.symm hj hi _ hk)
      refine ⟨some a, fun b hb => ?_, fun _ _ => rfl⟩
      obtain rfl := Option.some.inj hb
      exact ⟨hstops, o, hi, hwants, hlocks⟩
    · exact ⟨none, nofun, fun j hj => absurd ⟨j, hj⟩ hwait⟩
  choose stop hstop hsome using hstop
  refine ⟨stop, fun i a ha => (hstop i a ha).1, fun i j a b sku hne ha hb hholds => ?_, ?_⟩
  · obtain ⟨-, o, hi, -, hlocks⟩ := hstop i a ha
    obtain ⟨-, o', hj, -, hlocks'⟩ := hstop j b hb
    rw [← hlocks']
    exact hs.disjoint i j o o' hne hi hj _ ((hlocks sku).mpr hholds)
  · obtain ⟨i, hcycle⟩ := hcycle
    obtain ⟨j, hij, -⟩ := TransGen.head'_iff.mp hcycle
    refine ⟨i, TransGen.mono ?_ i i (Sessions.transGen_waiting hcycle ⟨j, hij⟩)⟩
    rintro x y ⟨hwait, z, hz⟩
    obtain ⟨a, ha⟩ := Option.isSome_iff_exists.mp (hsome x y hwait)
    obtain ⟨b, hb⟩ := Option.isSome_iff_exists.mp (hsome y z hz)
    obtain ⟨hne, o, o', k, hx, hy, ⟨sku, rfl⟩, hwants, hk⟩ := hwait
    obtain ⟨-, o₁, hx₁, hwants₁, -⟩ := hstop x a ha
    obtain ⟨-, o₂, hy₂, -, hlocks⟩ := hstop y b hb
    obtain rfl := Option.some.inj (hx.symm.trans hx₁)
    obtain rfl := Option.some.inj (hy.symm.trans hy₂)
    obtain heq := Key.stockLevel.inj (Option.some.inj (hwants.symm.trans hwants₁))
    exact ⟨hne, a, b, ha, hb, heq ▸ (hlocks sku).mp hk⟩

/-- Stops in a circle are a circle of waiting transactions. -/
theorem cycle_of_entangled {stop : Fin n → Option Stop} (h : Entangled tx db stop) :
    ∃ txns : Fin n → Option (OpenTx Row Err),
      Sessions.Inv Key.Indexed (fun i => (tx i).body) { db := db, txns := txns } ∧
      StockWaitCycle { db := db, txns := txns } := by
  have hopen : ∀ i, ∃ x : Option (OpenTx Row Err), (stop i = none → x = none) ∧
      ∀ a, stop i = some a → ∃ o, x = some o ∧ OpenTx.Alone Key.Indexed db (tx i).body o ∧
        o.rest.wants = some (.stockLevel a.line.sku) ∧ ∀ k, k ∈ o.locks ↔ RowOf db a.visited k := by
    intro i
    cases hi : stop i with
    | none => exact ⟨none, fun _ => rfl, nofun⟩
    | some a =>
      obtain ⟨o, halone, hwants, hlocks⟩ := alone_of_stop (h.stops i a hi)
      refine ⟨some o, nofun, fun b hb => ?_⟩
      obtain rfl := Option.some.inj hb
      exact ⟨o, rfl, halone, hwants, hlocks⟩
  choose txns hnone hsome using hopen
  -- every open transaction is at its stop
  have hat : ∀ i o, txns i = some o → ∃ a, stop i = some a ∧
      OpenTx.Alone Key.Indexed db (tx i).body o ∧
      o.rest.wants = some (.stockLevel a.line.sku) ∧ ∀ k, k ∈ o.locks ↔ RowOf db a.visited k := by
    intro i o hi
    cases hstop : stop i with
    | none => nomatch hi.symm.trans (hnone i hstop)
    | some a =>
      obtain ⟨o', ho', hrest⟩ := hsome i a hstop
      obtain rfl := Option.some.inj (hi.symm.trans ho')
      exact ⟨a, rfl, hrest⟩
  refine ⟨txns, ⟨fun i o hi => ?_, fun i j o o' hne hi hj k hk hk' => ?_⟩, ?_⟩
  · obtain ⟨a, -, halone, -⟩ := hat i o hi
    exact halone
  · obtain ⟨a, ha, -, -, hlocks⟩ := hat i o hi
    obtain ⟨b, hb, -, -, hlocks'⟩ := hat j o' hj
    have hrow := (hlocks k).mp hk
    obtain ⟨line, -, rfl⟩ := hrow.1
    exact h.disjoint i j a b line.sku hne ha hb (Stop.holds_iff.mpr hrow)
      (Stop.holds_iff.mpr ((hlocks' _).mp hk'))
  · obtain ⟨i, hcycle⟩ := h.cycle
    refine ⟨i, TransGen.mono ?_ i i hcycle⟩
    rintro x y ⟨hne, a, b, ha, hb, hholds⟩
    obtain ⟨o, hx, -, hwants, -⟩ := hsome x a ha
    obtain ⟨o', hy, -, -, hlocks⟩ := hsome y b hb
    exact ⟨hne, o, o', _, hx, hy, ⟨_, rfl⟩, hwants, (hlocks _).mpr (Stop.holds_iff.mp hholds)⟩

theorem waitCycle_iff_entangled :
    (∃ s, StockReach tx db s ∧ StockWaitCycle s) ↔
      ∃ s stop, StockReach tx db s ∧ Entangled tx s.db stop := by
  refine (Sessions.waitCycle_iff (fun i => (tx i).body_updates) Key.IsStock).trans ?_
  constructor
  · rintro ⟨s, txns, hreach, hinv, hcycle⟩
    obtain ⟨stop, hentangled⟩ := entangled_of_cycle hinv hcycle
    exact ⟨s, stop, hreach, hentangled⟩
  · rintro ⟨s, stop, hreach, hentangled⟩
    obtain ⟨txns, hinv, hcycle⟩ := cycle_of_entangled hentangled
    exact ⟨s, txns, hreach, hinv, hcycle⟩

/-! ## One order of SKUs -/

/-- A SKU is visited for the first time only after smaller ones. -/
def VisitsInOrder (r : String → String → Prop) (lines : List ReservationLine) : Prop :=
  ∀ visited line rest, lines = visited ++ line :: rest → line.sku ∉ visited.map (·.sku) →
    ∀ sku ∈ visited.map (·.sku), r sku line.sku

/-- Along a circle the SKUs that the transactions are at would get larger. -/
theorem not_entangled {r : String → String → Prop} (hr : IsStrictOrder String r)
    (hlines : ∀ i, VisitsInOrder r (tx i).lines) {stop : Fin n → Option Stop} :
    ¬ Entangled tx db stop := by
  intro h
  obtain ⟨i, hcycle⟩ := h.cycle
  obtain ⟨j, hij, -⟩ := TransGen.head'_iff.mp hcycle
  let sku : Fin n → String := fun i => (stop i).elim "" (·.line.sku)
  have hstep : TransGen r (sku i) (sku i) := by
    refine (Sessions.transGen_waiting hcycle ⟨j, hij⟩).lift sku ?_
    rintro x y ⟨⟨-, a, b, ha, hb, hholds⟩, z, hyz, b', c, hb', hc, hholds'⟩
    obtain rfl := Option.some.inj (hb.symm.trans hb')
    obtain ⟨⟨rest, hrest⟩, -⟩ := h.stops y b hb
    -- the SKU that `y` is at is held by `z`, so not by `y`
    have hnew : b.line.sku ∉ b.visited.map (·.sku) := fun hmem =>
      h.disjoint y z b c _ hyz hb hc ⟨hholds'.1, hmem⟩ hholds'
    have hlt := hlines y b.visited b.line rest hrest hnew a.line.sku hholds.2
    show r (sku x) (sku y)
    simpa [sku, ha, hb] using hlt
  rw [transGen_eq_self] at hstep
  exact irrefl_of r _ hstep

end Entangled

/-- **When stock transactions can deadlock**: over rows that some run commits
they are entangled; and never where all visit their SKUs in one order. -/
theorem stockDeadlock {n : ℕ} (tx : Fin n → StockTransaction) (db : Db) :
    ((∃ s, StockReach tx db s ∧ StockWaitCycle s) ↔
      ∃ s stop, StockReach tx db s ∧ Entangled tx s.db stop) ∧
    ∀ r : String → String → Prop, IsStrictOrder String r →
      (∀ i, VisitsInOrder r (tx i).lines) → ∀ s, StockReach tx db s → ¬ StockWaitCycle s := by
  refine ⟨waitCycle_iff_entangled, fun r hr hlines s hreach hcycle => ?_⟩
  obtain ⟨s', stop, -, hentangled⟩ := waitCycle_iff_entangled.mp ⟨s, hreach, hcycle⟩
  exact not_entangled hr hlines hentangled

/-! ## Two orders of the same SKUs -/

def fiveOfEach : Db :=
  [⟨.stockLevel "A", { description := "", qtyAvailable := 5, qtyReserved := 0 }⟩,
    ⟨.stockLevel "B", { description := "", qtyAvailable := 5, qtyReserved := 0 }⟩]

def oneOf (sku : String) : ReservationLine := { sku, qty := 1 }

/-- One order for an A and a B, and one for a B and an A. -/
def crossedTx : Fin 2 → StockTransaction
  | 0 => .reserve { orderId := order₁, lines := [oneOf "A", oneOf "B"], correlationId := "c" }
    reservation₁ "t" fun _ => "id"
  | 1 => .reserve { orderId := order₂, lines := [oneOf "B", oneOf "A"], correlationId := "c'" }
    reservation₂ "t" fun _ => "id'"

/-- Each has locked its first SKU and needs the other. -/
def crossedStop : Fin 2 → Option Stop
  | 0 => some ⟨[oneOf "A"], oneOf "B"⟩
  | 1 => some ⟨[oneOf "B"], oneOf "A"⟩

theorem entangled_crossed : Entangled crossedTx fiveOfEach crossedStop where
  stops := by
    rintro i a ha
    match i with
    | 0 =>
      obtain rfl := Option.some.inj ha
      exact ⟨⟨[], rfl⟩, _, runs_checkLines.mpr ⟨rfl, by decide +kernel⟩⟩
    | 1 =>
      obtain rfl := Option.some.inj ha
      exact ⟨⟨[], rfl⟩, _, runs_checkLines.mpr ⟨rfl, by decide +kernel⟩⟩
  disjoint := by
    rintro i j a b sku hne ha hb ⟨-, hmem⟩ ⟨-, hmem'⟩
    match i, j with
    | 0, 0 => exact hne rfl
    | 1, 1 => exact hne rfl
    | 0, 1 =>
      obtain rfl := Option.some.inj ha
      obtain rfl := Option.some.inj hb
      obtain rfl := List.mem_singleton.mp hmem
      nomatch List.mem_singleton.mp hmem'
    | 1, 0 =>
      obtain rfl := Option.some.inj ha
      obtain rfl := Option.some.inj hb
      obtain rfl := List.mem_singleton.mp hmem
      nomatch List.mem_singleton.mp hmem'
  cycle := ⟨0, .head (b := 1) ⟨nofun, _, _, rfl, rfl, rfl, .head _⟩
    (.single ⟨nofun, _, _, rfl, rfl, rfl, .head _⟩)⟩

/-- **Two reservations of the same two SKUs deadlock.** -/
theorem stockDeadlock_fails : ¬ ∀ (n : ℕ) (tx : Fin n → StockTransaction) (db : Db)
    (s : Sessions (Fin n) Row Err), StockReach tx db s → ¬ StockWaitCycle s := by
  intro h
  obtain ⟨s, hreach, hcycle⟩ := waitCycle_iff_entangled.mpr
    ⟨.idle fiveOfEach, crossedStop, .refl, entangled_crossed⟩
  exact h 2 crossedTx fiveOfEach s hreach hcycle

end Saganova
