import Saganova.Concurrency.Executions
import Saganova.SaveAndLoad
import Saganova.StockLedger

/-!
# All or nothing

A reservation nobody interferes with, with faults at any of its statements and
commits.  It reserves every line or records the first one that cannot be
reserved, and passes every other error on with nothing written; but
`qtyReserved` is an INTEGER, and each UPDATE rounds its sum.  So a reservation
that can be made (`Reservable`) moves the counters by what was asked for exactly
where the rounding errors of each SKU cancel out, as they do where the
quantities are whole (`roundingCancels_of_whole`).
-/

namespace Saganova

open Concurrency StockRepository

/-! ## Outcomes -/

section Outcome

/-- The line asks for what is there. -/
def Available (db : Db) (line : ReservationLine) : Prop :=
  ∃ row, stockLevel db line.sku = some row ∧
    line.qty ≤ (row.qtyAvailable - row.qtyReserved : ℤ)

/-- The SKU of the first line that is unknown or asks for too much. -/
def FirstUnavailable (db : Db) (lines : List ReservationLine) (sku : String) : Prop :=
  ∃ before line after, lines = before ++ line :: after ∧ (∀ l ∈ before, Available db l) ∧
    ¬ Available db line ∧ line.sku = sku

theorem FirstUnavailable.not_available {db : Db} {lines : List ReservationLine} {sku : String}
    (h : FirstUnavailable db lines sku) : ¬ ∀ line ∈ lines, Available db line := by
  obtain ⟨before, line, after, rfl, -, hunavailable, -⟩ := h
  exact fun havailable => hunavailable (havailable line (by simp))

variable (command : ReserveStockCommand) (db : Db)

/-- Exactly this event is appended to the event stores, as the order's first. -/
def AppendsFirst (event : InventoryEvent) (db' : Db) : Prop :=
  ∃ time, EventsAppended .inventory command.orderId command.correlationId 0 [⟨event, time⟩] db db'

/-- Every line is reserved. -/
structure LinesReserved (db' : Db) : Prop where
  available : ∀ line ∈ command.lines, Available db line
  moves : StockMoves db db' fun sku => qtyOf sku command.lines
  records : ∃ reservationId, AppendsFirst command db
    (.inventoryReserved { reservationId, orderId := command.orderId, lines := command.lines }) db'

/-- None is, and the first that cannot be is named. -/
structure NoneReserved (db' : Db) : Prop where
  stock : ∀ sku, stockLevel db' sku = stockLevel db sku
  records : ∃ sku reason, FirstUnavailable db command.lines sku ∧
    AppendsFirst command db
      (.inventoryReservationFailed { orderId := command.orderId, sku, reason }) db'

/-- The handler returns after the one or the other; any other error of a
transaction is passed on, and nothing is written. -/
structure AllOrNothing (did : List (Did Row Err Act.Reply)) (q : Handler Unit) (db' : Db) :
    Prop where
  returned : q = pure () → LinesReserved command db db' ∨ NoneReserved command db db'
  failing : ∀ seen e, .aborted seen e ∈ did → (∀ sku reason, e ≠ .insufficientStock sku reason) →
    q = throw e ∧ db' = db
  thrown : ∀ e, q = throw e → .aborted db e ∈ did ∧ db' = db

end Outcome

/-! ## Rounding -/

/-- What the quantities of a SKU are, in the order of the lines. -/
def quantities (sku : String) (lines : List ReservationLine) : List Num :=
  (lines.filter (·.sku = sku)).map (·.qty)

/-- The counter after these increments. -/
def countUp (n : ℤ) (qtys : List Num) : ℤ := qtys.foldl (fun n qty => roundNumeric (n + qty)) n

/-- How far each increment is off. -/
def roundingErrors : ℤ → List Num → List Num
  | _, [] => []
  | n, qty :: qtys =>
    (roundNumeric (n + qty) - (n + qty)) :: roundingErrors (roundNumeric (n + qty)) qtys

/-- Each increment leaves the counter in the range of its column. -/
def CountsFit : ℤ → List Num → Prop
  | _, [] => True
  | n, qty :: qtys =>
    Int4 (roundNumeric (n + qty)) ∧ CountsFit (roundNumeric (n + qty)) qtys

/-- For every SKU the errors of its increments cancel out. -/
def RoundingCancels (db : Db) (lines : List ReservationLine) : Prop :=
  ∀ sku row, stockLevel db sku = some row →
    (roundingErrors row.qtyReserved (quantities sku lines)).sum = 0

/-- Nothing is in the way of the reservation. -/
structure Reservable (command : ReserveStockCommand) (db : Db) : Prop where
  available : ∀ line ∈ command.lines, Available db line
  fits : ∀ sku row, stockLevel db sku = some row →
    CountsFit row.qtyReserved (quantities sku command.lines)
  unrecorded : Store.row db (.eventStore .inventory command.orderId 1) = none

theorem countUp_eq (n : ℤ) (qtys : List Num) :
    (countUp n qtys : Num) = n + qtys.sum + (roundingErrors n qtys).sum := by
  induction qtys generalizing n with
  | nil => simp [countUp, roundingErrors]
  | cons qty qtys ih =>
    show (countUp (roundNumeric (n + qty)) qtys : Num) = _
    rw [ih, roundingErrors, List.sum_cons, List.sum_cons]
    ring

/-- Whole quantities are not rounded. -/
theorem roundingErrors_of_whole {qtys : List Num} (h : ∀ qty ∈ qtys, ∃ m : ℤ, qty = m) (n : ℤ) :
    (roundingErrors n qtys).sum = 0 := by
  induction qtys generalizing n with
  | nil => rfl
  | cons qty qtys ih =>
    obtain ⟨⟨m, rfl⟩, hqtys⟩ := List.forall_mem_cons.mp h
    rw [roundingErrors, List.sum_cons, ih hqtys, add_zero, ← Int.cast_add, roundNumeric_intCast,
      sub_self]

theorem roundingCancels_of_whole {lines : List ReservationLine} (db : Db)
    (h : ∀ line ∈ lines, ∃ m : ℤ, line.qty = m) : RoundingCancels db lines := by
  intro sku row _
  refine roundingErrors_of_whole (fun qty hqty => ?_) _
  obtain ⟨line, hline, rfl⟩ := List.mem_map.mp hqty
  exact h line (List.mem_filter.mp hline).1

/-! ## Increments -/

section Increments

variable {db db' : Db} {u : Unit}

theorem level_increment {sku : String} {qty : Num} (h : Tx.Runs db (increment sku qty) u db')
    (sku' : String) : stockLevel db' sku' = (stockLevel db sku').map fun row =>
      if sku = sku' then { row with qtyReserved := roundNumeric (row.qtyReserved + qty) }
      else row := by
  rcases runs_updateReserved.mp h with ⟨hnone, rfl⟩ | ⟨row, hrow, -, rfl⟩
  · by_cases hsku : sku = sku'
    · subst hsku
      rw [show stockLevel db' sku = none from hnone]
      rfl
    · simp [hsku]
  · by_cases hsku : sku = sku'
    · subst hsku
      rw [show stockLevel db sku = some row from hrow, Option.map_some, if_pos rfl]
      exact Store.row_cons_self _ _ _
    · simp only [if_neg hsku, Option.map_id']
      exact Store.row_cons_ne _ _ (by simpa using Ne.symm hsku)

theorem level_incrementLines {lines : List ReservationLine}
    (h : Tx.Runs db (incrementLines lines) u db') (sku : String) :
    stockLevel db' sku = (stockLevel db sku).map fun row =>
      { row with qtyReserved := countUp row.qtyReserved (quantities sku lines) } := by
  induction lines generalizing db with
  | nil =>
    obtain ⟨-, rfl⟩ := Tx.runs_pure.mp h
    exact Option.map_id'.symm
  | cons line lines ih =>
    obtain ⟨_, db₁, hline, hlines⟩ := Tx.runs_bind.mp h
    rw [ih hlines, level_increment hline, Option.map_map]
    refine congrArg (fun f => (stockLevel db sku).map f) (funext fun row => ?_)
    by_cases hsku : line.sku = sku
    · simp [hsku, quantities, countUp]
    · simp [hsku, quantities]

/-- The UPDATEs go through exactly where all counters fit. -/
theorem exists_incrementLines {lines : List ReservationLine} :
    (∃ db', Tx.Runs db (incrementLines lines) () db') ↔ ∀ sku row,
      stockLevel db sku = some row → CountsFit row.qtyReserved (quantities sku lines) := by
  induction lines generalizing db with
  | nil => exact ⟨fun _ _ _ _ => trivial, fun _ => ⟨db, Tx.runs_pure.mpr ⟨rfl, rfl⟩⟩⟩
  | cons line lines ih =>
    constructor
    · rintro ⟨db', h⟩ sku row hrow
      obtain ⟨_, db₁, hline, hlines⟩ := Tx.runs_bind.mp h
      have hlevel := level_increment hline sku
      rw [hrow, Option.map_some] at hlevel
      have hfits := ih.mp ⟨db', hlines⟩ sku _ hlevel
      by_cases hsku : line.sku = sku
      · subst hsku
        rcases runs_updateReserved.mp hline with ⟨hnone, -⟩ | ⟨row', hrow', hint, -⟩
        · nomatch hnone.symm.trans hrow
        · obtain rfl := Option.some.inj (hrow'.symm.trans hrow)
          rw [if_pos rfl] at hfits
          rw [quantities, List.filter_cons_of_pos (by simp)]
          exact ⟨hint, hfits⟩
      · rw [if_neg hsku] at hfits
        rwa [quantities, List.filter_cons_of_neg (by simpa using hsku)]
    · intro hfits
      obtain ⟨db₁, hline⟩ : ∃ db₁, Tx.Runs db (increment line.sku line.qty) () db₁ := by
        cases hrow : stockLevel db line.sku with
        | none => exact ⟨db, runs_updateReserved.mpr (.inl ⟨hrow, rfl⟩)⟩
        | some row =>
          have hfirst := hfits line.sku row hrow
          rw [quantities, List.filter_cons_of_pos (by simp)] at hfirst
          exact ⟨_, runs_updateReserved.mpr (.inr ⟨row, hrow, hfirst.1, rfl⟩)⟩
      obtain ⟨db', hlines⟩ : ∃ db', Tx.Runs db₁ (incrementLines lines) () db' := by
        refine ih.mpr fun sku row hrow => ?_
        rw [level_increment hline] at hrow
        obtain ⟨old, hold, rfl⟩ := Option.map_eq_some_iff.mp hrow
        have hrest := hfits sku old hold
        by_cases hsku : line.sku = sku
        · rw [quantities, List.filter_cons_of_pos (by simpa using hsku)] at hrest
          rw [if_pos hsku]
          exact hrest.2
        · rw [quantities, List.filter_cons_of_neg (by simpa using hsku)] at hrest
          rwa [if_neg hsku]
      exact ⟨db', Tx.runs_bind.mpr ⟨(), db₁, hline, hlines⟩⟩

/-- **The counters move by what was asked for exactly where the errors cancel.** -/
theorem moves_iff {lines : List ReservationLine} (h : ∀ sku, stockLevel db' sku =
      (stockLevel db sku).map fun row =>
        { row with qtyReserved := countUp row.qtyReserved (quantities sku lines) }) :
    StockMoves db db' (fun sku => qtyOf sku lines) ↔ RoundingCancels db lines := by
  constructor
  · intro hmoves sku row hrow
    obtain ⟨row', hrow', -, hreserved⟩ := hmoves.level sku row hrow
    rw [h, hrow] at hrow'
    obtain rfl := Option.some.inj hrow'
    have hcount := (countUp_eq row.qtyReserved (quantities sku lines)).symm.trans hreserved
    unfold qtyOf at hcount
    unfold quantities at hcount ⊢
    linarith
  · intro hcancels
    refine ⟨fun sku hnone => by rw [h, hnone]; rfl, fun sku row hrow => ?_⟩
    refine ⟨_, (h sku).trans (congrArg _ hrow), rfl, ?_⟩
    rw [countUp_eq, hcancels sku row hrow, add_zero]
    rfl

end Increments

/-! ## Transactions -/

section Transactions

variable {command : ReserveStockCommand} {db db' : Db}

def IsInsufficient : Err → Prop
  | .insufficientStock _ _ => True
  | _ => False

theorem IsInsufficient.eq {e : Err} (h : IsInsufficient e) :
    ∃ sku reason, e = .insufficientStock sku reason := by
  cases e with
  | insufficientStock sku reason => exact ⟨sku, reason, rfl⟩
  | _ => exact h.elim

theorem exec_checkLine (db w : Db) (line : ReservationLine) :
    (checkLine line).exec db w = .ok ((), w) ∧ Available (w ++ db) line ∨
      (∃ reason, (checkLine line).exec db w = .error (.insufficientStock line.sku reason)) ∧
        ¬ Available (w ++ db) line := by
  unfold checkLine Available stockLevel
  rw [Tx.exec_lock]
  generalize (Store.row (w ++ db) (.stockLevel line.sku) : Option StockLevelRow) = found
  cases found with
  | none =>
    refine .inr ⟨⟨_, rfl⟩, ?_⟩
    rintro ⟨row, hrow, -⟩
    nomatch hrow
  | some row =>
    dsimp only
    split
    · rename_i hlt
      refine .inr ⟨⟨_, rfl⟩, ?_⟩
      rintro ⟨row', hrow', hle⟩
      obtain rfl := Option.some.inj hrow'
      exact absurd hlt (not_lt.mpr hle)
    · rename_i hlt
      exact .inl ⟨rfl, row, rfl, not_lt.mp hlt⟩

/-- Failing checks name the first line that cannot be reserved. -/
theorem exec_checkLines_error {lines : List ReservationLine} {e : Err}
    (h : (checkLines lines).exec db [] = .error e) :
    ∃ sku reason, e = .insufficientStock sku reason ∧ FirstUnavailable db lines sku := by
  induction lines with
  | nil => nomatch h
  | cons line lines ih =>
    have hline := exec_checkLine db [] line
    rw [List.nil_append] at hline
    rcases Tx.exec_bind_error.mp h with herror | ⟨u, w, hok, herror⟩
    · rcases hline with ⟨hok, -⟩ | ⟨⟨reason, hreason⟩, hunavailable⟩
      · nomatch hok.symm.trans herror
      · obtain rfl := Except.error.inj (herror.symm.trans hreason)
        exact ⟨line.sku, reason, rfl, [], line, lines, rfl, nofun, hunavailable, rfl⟩
    · rcases hline with ⟨hok', havailable⟩ | ⟨⟨reason, hreason⟩, -⟩
      · obtain ⟨-, rfl⟩ := Prod.mk.inj (Except.ok.inj (hok.symm.trans hok'))
        obtain ⟨sku, reason, rfl, before, line', after, rfl, hbefore, hfirst⟩ := ih herror
        exact ⟨sku, reason, rfl, line :: before, line', after, rfl,
          List.forall_mem_cons.mpr ⟨havailable, hbefore⟩, hfirst⟩
      · nomatch hok.symm.trans hreason

theorem incrementLines_avoids (lines : List ReservationLine) :
    (incrementLines lines).Avoids IsInsufficient := by
  induction lines with
  | nil => trivial
  | cons line lines ih => exact (updateReserved_avoids (fun _ => id) _ _).bind fun _ => ih

/-- **Stock is insufficient** where the first line that cannot be reserved is named. -/
theorem exec_transaction_insufficient {reservationId : Uuid} {time : Time} {ids : ℕ → Uuid}
    {sku reason : String}
    (h : (ReserveStockHandler.transaction command reservationId time ids).exec db [] =
      .error (.insufficientStock sku reason)) : FirstUnavailable db command.lines sku := by
  unfold ReserveStockHandler.transaction reserveLinesWithinTransaction at h
  rcases Tx.exec_bind_error.mp h with hreserve | ⟨_, w, -, hsave⟩
  · rcases Tx.exec_bind_error.mp hreserve with hcheck | ⟨_, w, -, hincrement⟩
    · obtain ⟨sku', reason', heq, hfirst⟩ := exec_checkLines_error hcheck
      obtain ⟨rfl, -⟩ := Err.insufficientStock.inj heq
      exact hfirst
    · exact absurd trivial ((incrementLines_avoids _).exec hincrement)
  · have havoids : (InventoryEventStoreRepository.saveWithinTransaction
        (StockAggregate.reserved command.orderId reservationId command.lines time)
        command.correlationId ids).Avoids IsInsufficient :=
      saveWithinTransaction_avoids (fun _ _ => id) _ _ _
    exact absurd trivial (havoids.exec hsave)

/-- Increments append no event. -/
theorem eventStore_incrementLines {lines : List ReservationLine} {u : Unit}
    (h : Tx.Runs db (incrementLines lines) u db') (svc : Service) (id : String) (k : ℕ) :
    Store.row db' (.eventStore svc id k) = Store.row db (.eventStore svc id k) :=
  onlyStock_incrementLines h _ nofun

/-- No key of the stock table. -/
def NoStock (k : Key) : Prop := ∀ sku, k ≠ .stockLevel sku

theorem writesOnly_appendEvents {svc : Service} {id correlationId : String} {ids : ℕ → Uuid}
    (version : ℕ) (events : List (UncommittedEvent svc.Event)) :
    (appendEvents svc id correlationId ids version events).WritesOnly NoStock := by
  induction events generalizing version with
  | nil => trivial
  | cons evt events ih =>
    exact (writesOnly_insert nofun).bind fun _ => (writesOnly_insert nofun).bind fun _ => ih _

theorem stockLevel_of_persist {svc : Service} {aggregate : svc.Aggregate} {correlationId : String}
    {ids : ℕ → Uuid} (h : Tx.Runs db (persist svc aggregate correlationId ids) () db')
    (sku : String) : stockLevel db' sku = stockLevel db sku := by
  have hwrites : (persist svc aggregate correlationId ids).WritesOnly NoStock :=
    (writesOnly_appendEvents _ _).bind fun _ => (writesOnly_projection svc aggregate).mono
      fun k hk => by cases hk <;> exact nofun
  exact hwrites.frame h fun hno => hno sku rfl

/-- What a failed reservation leaves. -/
theorem noneReserved_of_runs {sku reason : String} {time : Time} {ids : ℕ → Uuid}
    (hfirst : FirstUnavailable db command.lines sku)
    (h : Tx.Runs db (InventoryEventStoreRepository.saveWithinTransaction
      (StockAggregate.failed command.orderId sku reason time) command.correlationId ids) () db') :
    NoneReserved command db db' := by
  have hpersist := (@runs_saveWithinTransaction command.orderId _ [] _ _ _ _ _).mp h
  exact ⟨stockLevel_of_persist hpersist, sku, reason, hfirst, time, appended_of_persist hpersist⟩

/-- What a reservation that goes through leaves. -/
theorem linesReserved_iff {reservationId : Uuid} {time : Time} {ids : ℕ → Uuid}
    (h : Tx.Runs db (ReserveStockHandler.transaction command reservationId time ids) () db') :
    LinesReserved command db db' ↔ RoundingCancels db command.lines := by
  obtain ⟨_, db₁, hreserve, hsave⟩ := Tx.runs_bind.mp h
  obtain ⟨havailable, hincrement⟩ := runs_reserveLines.mp hreserve
  have hpersist := (@runs_saveWithinTransaction command.orderId _ [] _ _ _ _ _).mp hsave
  have hlevel : ∀ sku, stockLevel db' sku = (stockLevel db sku).map fun row =>
      { row with qtyReserved := countUp row.qtyReserved (quantities sku command.lines) } :=
    fun sku => (stockLevel_of_persist hpersist sku).trans (level_incrementLines hincrement sku)
  have hsame := eventStore_incrementLines hincrement
  have happended := appended_of_persist hpersist
  refine ⟨fun hreserved => (moves_iff hlevel).mp hreserved.moves, fun hcancels =>
    ⟨havailable, (moves_iff hlevel).mpr hcancels, reservationId, time, ?_⟩⟩
  exact ⟨fun k hk => (hsame _ _ _).symm.trans (happended.free k hk), happended.stored,
    fun svc id k hk => (happended.others svc id k hk).trans (hsame _ _ _)⟩

theorem exists_freeOutbox (db : Db) (svc : Service) :
    ∃ id, Store.row db (.outbox svc id) = none := by
  have hinjective : Function.Injective fun n : ℕ =>
      Key.outbox svc (String.ofList (List.replicate n 'a')) := by
    intro n m heq
    simpa using congrArg List.length (String.ofList_injective (Key.outbox.inj heq).2)
  obtain ⟨n, hfree⟩ := Store.exists_free hinjective db
  exact ⟨_, hfree⟩

theorem exists_upsertReservation (db : Db) (aggregate : StockAggregate) : ∃ db',
    Tx.Runs db (ReservationProjectionRepository.upsertWithinTransaction aggregate) () db' := by
  unfold ReservationProjectionRepository.upsertWithinTransaction
  cases hrow : Store.row db (.projection .inventory aggregate.id) with
  | none => exact ⟨_, runs_upsert.mpr (.inl ⟨hrow, runs_insert.mpr ⟨hrow, rfl⟩⟩)⟩
  | some old => exact ⟨_, runs_upsert.mpr (.inr ⟨old, hrow, rfl⟩)⟩

/-- An order's first event can be saved where there is none. -/
theorem exists_saveFirst {event : InventoryEvent} {time : Time} {orderId correlationId : String}
    (hnone : Store.row db (.eventStore .inventory orderId 1) = none) : ∃ ids db',
      Tx.Runs db (InventoryEventStoreRepository.saveWithinTransaction
        (withEvent .inventory orderId [] event time) correlationId ids) () db' := by
  obtain ⟨id, hfree⟩ := exists_freeOutbox db .inventory
  obtain ⟨db', hupsert⟩ := exists_upsertReservation
    (⟨.outbox .inventory id, outboxRow .inventory orderId
        (eventRow .inventory event time correlationId)⟩ ::
      ⟨.eventStore .inventory orderId 1, eventRow .inventory event time correlationId⟩ :: db)
    (withEvent .inventory orderId [] event time)
  exact ⟨fun _ => id, db', runs_saveWithinTransaction.mpr (runs_persist.mpr
    ⟨hnone, hfree, hupsert⟩)⟩

/-- **Stock is reserved exactly where nothing is in the way.** -/
theorem exists_transaction : (∃ reservationId time ids db',
    Tx.Runs db (ReserveStockHandler.transaction command reservationId time ids) () db') ↔
      Reservable command db := by
  constructor
  · rintro ⟨reservationId, time, ids, db', h⟩
    obtain ⟨_, db₁, hreserve, hsave⟩ := Tx.runs_bind.mp h
    obtain ⟨havailable, hincrement⟩ := runs_reserveLines.mp hreserve
    have hpersist := (@runs_saveWithinTransaction command.orderId _ [] _ _ _ _ _).mp hsave
    refine ⟨havailable, exists_incrementLines.mp ⟨db₁, hincrement⟩, ?_⟩
    have hsame := eventStore_incrementLines hincrement .inventory command.orderId 1
    exact hsame.symm.trans (runs_persist.mp hpersist).1
  · intro h
    obtain ⟨db₁, hincrement⟩ := exists_incrementLines.mpr h.fits
    have hsame := eventStore_incrementLines hincrement .inventory command.orderId 1
    obtain ⟨ids, db', hsave⟩ := exists_saveFirst (hsame.trans h.unrecorded)
    exact ⟨reservation₁, "t", ids, db', Tx.runs_bind.mpr
      ⟨(), db₁, runs_reserveLines.mpr ⟨h.available, hincrement⟩, hsave⟩⟩

end Transactions

/-! ## Executions -/

/-- How an execution may stand, where it found no reservation. -/
inductive ReserveStands (command : ReserveStockCommand) (db : Db) :
    List (Did Row Err Act.Reply) → Handler Unit → Db → Prop
  /-- something is left to do; at most stock was insufficient -/
  | underway {did : List (Did Row Err Act.Reply)} {q : Handler Unit} :
      (∀ seen e, .aborted seen e ∈ did → IsInsufficient e) → q.Unfinished →
      ReserveStands command db did q db
  | reserved {did : List (Did Row Err Act.Reply)} {db' : Db} {reservationId : Uuid} {time : Time}
      {ids : ℕ → Uuid} : (∀ seen e, .aborted seen e ∉ did) →
      Tx.Runs db (ReserveStockHandler.transaction command reservationId time ids) () db' →
      ReserveStands command db did (pure ()) db'
  | failed {did : List (Did Row Err Act.Reply)} {db' : Db} {sku reason : String} {time : Time}
      {ids : ℕ → Uuid} : (∀ seen e, .aborted seen e ∈ did → IsInsufficient e) →
      FirstUnavailable db command.lines sku →
      Tx.Runs db (InventoryEventStoreRepository.saveWithinTransaction
        (StockAggregate.failed command.orderId sku reason time) command.correlationId ids) () db' →
      ReserveStands command db did (pure ()) db'
  | threw {did : List (Did Row Err Act.Reply)} {err : Err} : .aborted db err ∈ did →
      (∀ seen e, .aborted seen e ∈ did → e = err ∨ IsInsufficient e) →
      ReserveStands command db did (throw err) db

section Executions

variable {command : ReserveStockCommand} {db db' : Db} {did : List (Did Row Err Act.Reply)}
  {q : Handler Unit}

/-- Recording a failure, after what was `before`. -/
theorem failureStands (before : List (Did Row Err Act.Reply)) {sku reason : String}
    (hbefore : ∀ seen e, .aborted seen e ∈ before → IsInsufficient e)
    (hfirst : FirstUnavailable db command.lines sku)
    (h : (now >>= fun time => InventoryEventStoreRepository.save
      (StockAggregate.failed command.orderId sku reason time) command.correlationId >>= fun _ =>
        pure ()).Does databaseFault did q)
    (halone : Alone db did db') : ReserveStands command db (before ++ did) q db' := by
  rcases Proc.does_act h with ⟨rfl, rfl⟩ | ⟨time, did, rfl, htime⟩
  · obtain rfl := halone
    exact .underway (by simpa using hbefore) trivial
  rcases Proc.does_act htime with ⟨rfl, rfl⟩ | ⟨ids, did, rfl, hids⟩
  · obtain rfl := halone
    exact .underway (by simpa using hbefore) trivial
  rcases Proc.does_tx hids with ⟨rfl, rfl⟩ | ⟨seen, writes, did, rfl, hexec, hend⟩ |
    ⟨seen, e, did, rfl, -, hend⟩
  · obtain rfl := halone
    exact .underway (by simpa using hbefore) trivial
  · obtain ⟨rfl, rfl⟩ := Proc.does_pure hend
    obtain ⟨rfl, rfl⟩ := halone
    exact .failed (by simpa using hbefore) hfirst (Tx.runs_of_exec hexec)
  · obtain ⟨rfl, rfl⟩ := Proc.does_throw hend
    obtain ⟨rfl, rfl⟩ := halone
    refine .threw (by simp) fun seen' e' hmem => ?_
    rcases List.mem_append.mp hmem with hmem | hmem
    · exact .inr (hbefore seen' e' hmem)
    · exact .inl (by simp_all)

theorem reserveStands (hfresh : Store.row db (.projection .inventory command.orderId) = none)
    (h : (ReserveStockHandler.execute command).Does databaseFault did q)
    (halone : Alone db did db') :
    ReserveStands command db did q db' := by
  unfold ReserveStockHandler.execute ReservationProjectionRepository.findByOrderId at h
  rw [Proc.select_bind] at h
  rcases Proc.does_read h with ⟨rfl, rfl⟩ | ⟨seen, did, rfl, hread⟩
  · obtain rfl := halone
    exact .underway (by simp) trivial
  obtain ⟨rfl, halone⟩ := halone
  simp only [hfresh, randomUUID_bind, now_bind, randomUUIDs_bind] at hread
  rcases Proc.does_act hread with ⟨rfl, rfl⟩ | ⟨reservationId, did, rfl, hid⟩
  · obtain rfl := halone
    exact .underway (by simp) trivial
  rcases Proc.does_act hid with ⟨rfl, rfl⟩ | ⟨time, did, rfl, htime⟩
  · obtain rfl := halone
    exact .underway (by simp) trivial
  rcases Proc.does_act htime with ⟨rfl, rfl⟩ | ⟨ids, did, rfl, hids⟩
  · obtain rfl := halone
    exact .underway (by simp) trivial
  rcases Proc.does_tx hids with ⟨rfl, rfl⟩ | ⟨seen, writes, did, rfl, hexec, hend⟩ |
    ⟨seen, e, did, rfl, herror, hend⟩
  · obtain rfl := halone
    exact .underway (by simp) trivial
  · obtain ⟨rfl, rfl⟩ := Proc.does_pure hend
    obtain ⟨rfl, rfl⟩ := halone
    exact .reserved (by simp) (Tx.runs_of_exec hexec)
  · obtain ⟨rfl, halone⟩ := halone
    cases e with
    | insufficientStock sku reason =>
      have hfirst : FirstUnavailable seen command.lines sku := by
        rcases herror with ⟨m, hfault⟩ | hexec
        · cases hfault
        · exact exec_transaction_insufficient hexec
      exact failureStands [.read seen, .acted .randomUUID reservationId, .acted .now time,
        .acted .randomUUIDs ids, .aborted seen (.insufficientStock sku reason)]
        (by simp [IsInsufficient]) hfirst hend halone
    | _ =>
      obtain ⟨rfl, rfl⟩ := Proc.does_throw hend
      obtain rfl := halone
      exact .threw (by simp) (by simp)

/-- A reservation that can be made is made by an execution without faults. -/
theorem exists_does_reserved {reservationId : Uuid} {time : Time} {ids : ℕ → Uuid}
    (hfresh : Store.row db (.projection .inventory command.orderId) = none)
    (h : Tx.Runs db (ReserveStockHandler.transaction command reservationId time ids) () db') :
    ∃ did, (ReserveStockHandler.execute command).Does databaseFault did (pure ()) ∧
      Alone db did db' := by
  obtain ⟨writes, hexec, rfl⟩ := h
  refine ⟨[.read db, .acted .randomUUID reservationId, .acted .now time, .acted .randomUUIDs ids,
    .committed db writes], ?_, rfl, rfl, rfl⟩
  unfold ReserveStockHandler.execute ReservationProjectionRepository.findByOrderId
  rw [Proc.select_bind]
  refine .read db ?_
  simp only [hfresh, randomUUID_bind, now_bind, randomUUIDs_bind]
  exact .act _ (.act _ (.act _ (.commit hexec .nothing)))

end Executions

theorem ReserveStands.allOrNothing {command : ReserveStockCommand} {db db' : Db}
    {did : List (Did Row Err Act.Reply)} {q : Handler Unit}
    (hcancels : Reservable command db → RoundingCancels db command.lines)
    (h : ReserveStands command db did q db') : AllOrNothing command db did q db' := by
  cases h with
  | underway hinsufficient hleft =>
    refine ⟨fun h => absurd h (hleft.ne_pure ()), fun seen e hmem he => ?_,
      fun e h => absurd h (hleft.ne_throw e)⟩
    obtain ⟨sku, reason, rfl⟩ := (hinsufficient seen e hmem).eq
    exact absurd rfl (he sku reason)
  | reserved hnothing hruns =>
    have hreservable := exists_transaction.mp ⟨_, _, _, _, hruns⟩
    have hreserved := (linesReserved_iff hruns).mpr (hcancels hreservable)
    exact ⟨fun _ => .inl hreserved, fun seen e hmem => absurd hmem (hnothing seen e), nofun⟩
  | failed hinsufficient hfirst hruns =>
    refine ⟨fun _ => .inr (noneReserved_of_runs hfirst hruns), fun seen e hmem he => ?_, nofun⟩
    obtain ⟨sku, reason, rfl⟩ := (hinsufficient seen e hmem).eq
    exact absurd rfl (he sku reason)
  | threw hmem honly =>
    refine ⟨nofun, fun seen e hmem' he => ?_, fun e h => ?_⟩
    · rcases honly seen e hmem' with rfl | hinsufficient
      · exact ⟨rfl, rfl⟩
      · obtain ⟨sku, reason, rfl⟩ := hinsufficient.eq
        exact absurd rfl (he sku reason)
    · cases h
      exact ⟨hmem, rfl⟩

/-- **A reservation is all or nothing**, and what it reserves is what was asked
for exactly where the counters' rounding errors cancel out. -/
theorem reservation_iff (command : ReserveStockCommand) (db : Db)
    (hfresh : Store.row db (.projection .inventory command.orderId) = none) :
    (∀ did q db', (ReserveStockHandler.execute command).Does databaseFault did q →
        Alone db did db' → AllOrNothing command db did q db') ↔
      (Reservable command db → RoundingCancels db command.lines) := by
  constructor
  · intro hall hreservable
    obtain ⟨reservationId, time, ids, db', hruns⟩ := exists_transaction.mpr hreservable
    obtain ⟨did, hdoes, halone⟩ := exists_does_reserved hfresh hruns
    rcases (hall did _ db' hdoes halone).returned rfl with hreserved | hnone
    · exact (linesReserved_iff hruns).mp hreserved
    · obtain ⟨sku, reason, hfirst, -⟩ := hnone.records
      exact absurd hreservable.available hfirst.not_available
  · intro hcancels did q db' hdoes halone
    exact (reserveStands hfresh hdoes halone).allOrNothing hcancels

/-! ## Five in stock -/

def reserveA (qty : Num) : ReserveStockCommand where
  orderId := order₁
  lines := [⟨"A", qty⟩]
  correlationId := "c"

theorem reservable_reserveA {qty : Num} (hqty : qty ≤ 5) (hfits : Int4 (roundNumeric (0 + qty))) :
    Reservable (reserveA qty) fiveInStock where
  available := List.forall_mem_singleton.mpr ⟨_, rfl, hqty⟩
  fits := by
    intro sku row hrow
    rw [(level_fiveInStock hrow).2]
    by_cases hsku : "A" = sku
    · subst hsku
      exact ⟨hfits, trivial⟩
    · rw [quantities, reserveA, List.filter_cons_of_neg (by simpa using hsku)]
      trivial
  unrecorded := rfl

theorem reservation_two : ∃ did db',
    (ReserveStockHandler.execute (reserveA 2)).Does databaseFault did (pure ()) ∧
      AllOrNothing (reserveA 2) fiveInStock did (pure ()) db' := by
  have hreservable : Reservable (reserveA 2) fiveInStock :=
    reservable_reserveA (by norm_num) (by decide +kernel)
  obtain ⟨_, _, _, db', hruns⟩ := exists_transaction.mpr hreservable
  obtain ⟨did, hdoes, halone⟩ := exists_does_reserved rfl hruns
  have hwhole : ∀ line ∈ (reserveA 2).lines, ∃ m : ℤ, line.qty = m :=
    List.forall_mem_singleton.mpr ⟨2, rfl⟩
  exact ⟨did, db', hdoes, (reservation_iff (reserveA 2) fiveInStock rfl).mpr
    (fun _ => roundingCancels_of_whole _ hwhole) did (pure ()) db' hdoes halone⟩

/-- Half of one is counted as one. -/
theorem reservation_fails : ¬ ∀ (command : ReserveStockCommand)
    (did : List (Did Row Err Act.Reply)) (q : Handler Unit) (db db' : Db),
    Store.row db (.projection .inventory command.orderId) = none →
    (ReserveStockHandler.execute command).Does databaseFault did q → Alone db did db' →
      AllOrNothing command db did q db' := by
  intro hall
  have hreservable : Reservable (reserveA (1 / 2)) fiveInStock :=
    reservable_reserveA (by norm_num) (by decide +kernel)
  obtain ⟨_, _, _, db', hruns⟩ := exists_transaction.mpr hreservable
  obtain ⟨did, hdoes, halone⟩ := exists_does_reserved rfl hruns
  rcases (hall _ _ _ fiveInStock _ rfl hdoes halone).returned rfl with hreserved | hnone
  · obtain ⟨row, -, -, hrow⟩ := hreserved.moves.level "A" _ rfl
    have hhalf : (row.qtyReserved : ℚ) = 1 / 2 := hrow.trans (by decide +kernel)
    have htwice : 2 * row.qtyReserved = 1 := by
      have : (2 * row.qtyReserved : ℚ) = 1 := by linarith
      exact_mod_cast this
    omega
  · obtain ⟨sku, reason, hfirst, -⟩ := hnone.records
    exact hfirst.not_available hreservable.available

end Saganova
