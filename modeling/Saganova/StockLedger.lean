import Mathlib.Algebra.Order.BigOperators.Group.Finset
import Mathlib.Tactic.Linarith
import Saganova.ServiceConsistency

/-!
# The stock ledger

The counters of `stock_level` against the streams of the inventory service.
A stream has at most two events (`ReservationStream`); an order holds the lines
of its reservation until it is released (`heldLines`).  Every step moves a
counter by what it changes in the held lines, so `qtyReserved` is what it was
at the start plus everything held (`Ledger`).
-/

namespace Saganova

open Concurrency StockRepository

/-! ## Quantities -/

/-- What the lines ask of a SKU. -/
def qtyOf (sku : String) (lines : List ReservationLine) : Num :=
  ((lines.filter (·.sku = sku)).map (·.qty)).sum

@[simp] theorem qtyOf_nil (sku : String) : qtyOf sku [] = 0 := rfl

theorem qtyOf_cons (sku : String) (line : ReservationLine) (lines : List ReservationLine) :
    qtyOf sku (line :: lines) = (if line.sku = sku then line.qty else 0) + qtyOf sku lines := by
  unfold qtyOf
  by_cases h : line.sku = sku
  · simp [h]
  · simp [h]

/-- Every line asks for a positive whole number. -/
def PositiveLines (lines : List ReservationLine) : Prop :=
  ∀ line ∈ lines, ∃ n : ℕ, 0 < n ∧ line.qty = n

theorem PositiveLines.qtyOf_nonneg {lines : List ReservationLine} (h : PositiveLines lines)
    (sku : String) : 0 ≤ qtyOf sku lines := by
  refine List.sum_nonneg fun q hq => ?_
  obtain ⟨line, hline, rfl⟩ := List.mem_map.mp hq
  obtain ⟨n, -, hn⟩ := h line (List.mem_filter.mp hline).1
  rw [hn]
  exact Nat.cast_nonneg n

/-- Nothing is asked of a SKU that no line names. -/
theorem qtyOf_eq_zero {sku : String} {lines : List ReservationLine}
    (h : ∀ line ∈ lines, line.sku ≠ sku) : qtyOf sku lines = 0 := by
  unfold qtyOf
  rw [List.filter_eq_nil_iff.mpr fun line hline => by simpa using h line hline]
  rfl

/-! ## Stock levels -/

abbrev stockLevel (db : Db) (sku : String) : Option StockLevelRow := Store.row db (.stockLevel sku)

/-- The counter of each SKU moved by `moved`; the rest of the table stays. -/
structure StockMoves (db db' : Db) (moved : String → Num) : Prop where
  unknown : ∀ sku, stockLevel db sku = none → stockLevel db' sku = none
  level : ∀ sku row, stockLevel db sku = some row → ∃ row', stockLevel db' sku = some row' ∧
    row'.qtyAvailable = row.qtyAvailable ∧ (row'.qtyReserved : Num) = row.qtyReserved + moved sku

theorem StockMoves.of_eq {db db' : Db} (h : ∀ sku, stockLevel db' sku = stockLevel db sku) :
    StockMoves db db' fun _ => 0 where
  unknown := fun sku hnone => (h sku).trans hnone
  level := fun sku row hrow => ⟨row, (h sku).trans hrow, rfl, by ring⟩

theorem StockMoves.trans {db₁ db₂ db₃ : Db} {moved moved' moved'' : String → Num}
    (h : StockMoves db₁ db₂ moved) (h' : StockMoves db₂ db₃ moved')
    (hsum : ∀ sku, moved'' sku = moved sku + moved' sku) : StockMoves db₁ db₃ moved'' where
  unknown := fun sku hnone => h'.unknown sku (h.unknown sku hnone)
  level := by
    intro sku row hrow
    obtain ⟨row₂, hrow₂, havailable₂, hreserved₂⟩ := h.level sku row hrow
    obtain ⟨row₃, hrow₃, havailable₃, hreserved₃⟩ := h'.level sku row₂ hrow₂
    refine ⟨row₃, hrow₃, havailable₃.trans havailable₂, ?_⟩
    rw [hreserved₃, hreserved₂, hsum]
    ring

/-- A level after the moves is one from before them. -/
theorem StockMoves.origin {db db' : Db} {moved : String → Num} (h : StockMoves db db' moved)
    {sku : String} {row : StockLevelRow} (hrow : stockLevel db' sku = some row) :
    ∃ old, stockLevel db sku = some old ∧ row.qtyAvailable = old.qtyAvailable ∧
      (row.qtyReserved : Num) = old.qtyReserved + moved sku := by
  cases hold : stockLevel db sku with
  | none => nomatch (h.unknown sku hold).symm.trans hrow
  | some old =>
    obtain ⟨row', hrow', hmoved⟩ := h.level sku old hold
    obtain rfl := Option.some.inj (hrow.symm.trans hrow')
    exact ⟨old, rfl, hmoved⟩

/-- One counter moved by a whole number. -/
theorem moves_updateReserved {db db' : Db} {sku : String} {f : ℤ → Num} {q : ℤ} {u : Unit}
    (h : Tx.Runs db (updateReserved sku f) u db')
    (hf : ∀ row, stockLevel db sku = some row →
      roundNumeric (f row.qtyReserved) = row.qtyReserved + q) :
    StockMoves db db' fun sku' => if sku = sku' then (q : Num) else 0 := by
  rcases runs_updateReserved.mp h with ⟨hnone, rfl⟩ | ⟨row, hrow, -, rfl⟩
  · refine ⟨fun _ hnone => hnone, fun sku' row hrow => ⟨row, hrow, rfl, ?_⟩⟩
    by_cases hsku : sku = sku'
    · subst hsku
      cases hnone.symm.trans hrow
    · rw [if_neg hsku, add_zero]
  · have hne : ∀ sku', sku ≠ sku' → Key.stockLevel sku' ≠ .stockLevel sku := by
      intro sku' hsku heq
      cases heq
      exact hsku rfl
    constructor
    · intro sku' hnone
      by_cases hsku : sku = sku'
      · subst hsku
        cases hnone.symm.trans hrow
      · exact (Store.row_cons_ne _ _ (hne sku' hsku)).trans hnone
    · intro sku' row' hrow'
      by_cases hsku : sku = sku'
      · subst hsku
        cases hrow.symm.trans hrow'
        refine ⟨_, Store.row_cons_self _ _ _, rfl, ?_⟩
        rw [if_pos rfl, hf row hrow]
        push_cast
        rfl
      · refine ⟨row', (Store.row_cons_ne _ _ (hne sku' hsku)).trans hrow', rfl, ?_⟩
        rw [if_neg hsku, add_zero]

theorem moves_incrementLines {db db' : Db} {lines : List ReservationLine} {u : Unit}
    (hlines : PositiveLines lines) (h : Tx.Runs db (incrementLines lines) u db') :
    StockMoves db db' fun sku => qtyOf sku lines := by
  induction lines generalizing db with
  | nil =>
    obtain ⟨-, rfl⟩ := Tx.runs_pure.mp h
    exact .of_eq fun _ => rfl
  | cons line lines ih =>
    obtain ⟨hline, hlines⟩ := List.forall_mem_cons.mp hlines
    obtain ⟨q, -, hq⟩ := hline
    obtain ⟨_, db₁, hupdate, hrest⟩ := Tx.runs_bind.mp h
    have hmove := moves_updateReserved (q := q) hupdate fun row _ => by
      rw [hq]
      exact_mod_cast roundNumeric_intCast (row.qtyReserved + q)
    refine hmove.trans (ih hlines hrest) fun sku => ?_
    rw [qtyOf_cons, hq]
    push_cast
    rfl

theorem moves_releaseLines {db db' : Db} {lines : List ReservationLine} {u : Unit}
    (hlines : PositiveLines lines) (h : Tx.Runs db (releaseLinesWithinTransaction lines) u db') :
    StockMoves db db' fun sku => - qtyOf sku lines := by
  induction lines generalizing db with
  | nil =>
    obtain ⟨-, rfl⟩ := Tx.runs_pure.mp h
    simpa using @StockMoves.of_eq db' db' fun _ => rfl
  | cons line lines ih =>
    obtain ⟨hline, hlines⟩ := List.forall_mem_cons.mp hlines
    obtain ⟨q, -, hq⟩ := hline
    obtain ⟨_, db₁, hupdate, hrest⟩ := Tx.runs_bind.mp h
    have hmove := moves_updateReserved (q := -q) hupdate fun row _ => by
      rw [hq]
      exact_mod_cast roundNumeric_intCast (row.qtyReserved - q)
    refine hmove.trans (ih hlines hrest) fun sku => ?_
    rw [qtyOf_cons, hq]
    split <;> push_cast <;> ring

/-! ## Reservation streams -/

/-- What the inventory records of an order. -/
inductive ReservationStream (o : Uuid) : List InventoryEvent → Prop
  | untried : ReservationStream o []
  | reserved (r : Uuid) (lines : List ReservationLine) :
      ReservationStream o [.inventoryReserved { reservationId := r, orderId := o, lines }]
  | failed (sku reason : String) :
      ReservationStream o [.inventoryReservationFailed { orderId := o, sku, reason }]
  | released (r : Uuid) (lines : List ReservationLine) :
      ReservationStream o [.inventoryReserved { reservationId := r, orderId := o, lines },
        .inventoryReleased { reservationId := some r, orderId := o }]

/-- The lines of a reservation that was not released. -/
def heldLines : List InventoryEvent → List ReservationLine
  | [.inventoryReserved p] => p.lines
  | _ => []

abbrev eventsOf (rows : List (EventStoreRow .inventory)) : List InventoryEvent := rows.map (·.event)

theorem eventsOf_snoc (rows : List (EventStoreRow .inventory)) (r : EventStoreRow .inventory) :
    eventsOf (rows ++ [r]) = eventsOf rows ++ [r.event] := List.map_append

/-- A stream that replays to RESERVED is one reservation. -/
theorem ReservationStream.eq_reserved {o : Uuid} {rows : List (EventStoreRow .inventory)}
    (h : ReservationStream o (eventsOf rows)) (hstatus : (replay .inventory rows).status = .reserved) :
    ∃ r lines, eventsOf rows = [.inventoryReserved { reservationId := r, orderId := o, lines }] ∧
      (replay .inventory rows).reservationId = some r ∧ (replay .inventory rows).lines = lines := by
  have hreplay : replay .inventory rows =
      (eventsOf rows).foldl StockAggregate.when StockAggregate.blankState := rfl
  rw [hreplay] at hstatus ⊢
  generalize eventsOf rows = events at h hstatus ⊢
  cases h with
  | untried => cases hstatus
  | reserved r lines => exact ⟨r, lines, rfl, rfl, rfl⟩
  | failed sku reason => cases hstatus
  | released r lines => cases hstatus

/-! ## What is held -/

/-- The events of an order's stream. -/
def inventoryEvents (db : Db) (o : Uuid) : List InventoryEvent :=
  (loadStream .inventory db o).map (·.event)

theorem inventoryEvents_eq {db : Db} {o : Uuid} {rows : List (EventStoreRow .inventory)}
    (h : HasStream .inventory db o rows) : inventoryEvents db o = eventsOf rows := by
  unfold inventoryEvents
  rw [loadStream_eq h]
  ext k
  simp [storedEvent]

/-- What an order holds of a SKU. -/
def heldBy (db : Db) (o : Uuid) (sku : String) : Num := qtyOf sku (heldLines (inventoryEvents db o))

/-- The orders that the inventory has events of. -/
def inventoryOrders (db : Db) : Finset Uuid :=
  (db.filterMap fun entry => match entry.1 with
    | .eventStore .inventory o _ => some o
    | _ => none).toFinset

/-- What all orders hold of a SKU. -/
def totalHeld (db : Db) (sku : String) : Num := ∑ o ∈ inventoryOrders db, heldBy db o sku

section HeldSum

variable (weight : List ReservationLine → Num)

/-- What all orders hold, as `weight` counts lines. -/
def heldSum (db : Db) : Num := ∑ o ∈ inventoryOrders db, weight (heldLines (inventoryEvents db o))

variable {weight} (hnil : weight [] = 0) {db db' : Db}

include hnil

theorem held_eq_zero {o : Uuid} (h : o ∉ inventoryOrders db) :
    weight (heldLines (inventoryEvents db o)) = 0 := by
  have hrows : ∀ n, Store.row db (.eventStore .inventory o n) = none := by
    intro n
    cases hrow : Store.row db (.eventStore .inventory o n) with
    | none => rfl
    | some row =>
      obtain ⟨entry, hentry, hkey⟩ := List.mem_map.mp (Store.mem_keys_of_row hrow)
      refine absurd (List.mem_toFinset.mpr (List.mem_filterMap.mpr ⟨entry, hentry, ?_⟩)) h
      rw [hkey]
  have hevents : inventoryEvents db o = [] := by
    unfold inventoryEvents loadStream
    simp only [hrows, Option.map_none, List.filterMap_none, List.map_nil]
  rw [hevents]
  exact hnil

theorem heldSum_eq {orders : Finset Uuid} (h : inventoryOrders db ⊆ orders) :
    heldSum weight db = ∑ o ∈ orders, weight (heldLines (inventoryEvents db o)) :=
  Finset.sum_subset h fun _ _ hnot => held_eq_zero hnil hnot

/-- Where one order's stream changed, so did the sum. -/
theorem heldSum_step (o : Uuid) (moved : Num)
    (hself : weight (heldLines (inventoryEvents db' o)) =
      weight (heldLines (inventoryEvents db o)) + moved)
    (hothers : ∀ o', o' ≠ o → weight (heldLines (inventoryEvents db' o')) =
      weight (heldLines (inventoryEvents db o'))) :
    heldSum weight db' = heldSum weight db + moved := by
  let orders : Finset Uuid := Insert.insert o (inventoryOrders db ∪ inventoryOrders db')
  have hdb : inventoryOrders db ⊆ orders :=
    Finset.subset_union_left.trans (Finset.subset_insert _ _)
  have hdb' : inventoryOrders db' ⊆ orders :=
    Finset.subset_union_right.trans (Finset.subset_insert _ _)
  have ho : o ∈ orders := Finset.mem_insert_self _ _
  let held : Db → Uuid → Num := fun db o => weight (heldLines (inventoryEvents db o))
  have hrest : ∑ o' ∈ orders.erase o, held db' o' = ∑ o' ∈ orders.erase o, held db o' :=
    Finset.sum_congr rfl fun o' ho' => hothers o' (Finset.ne_of_mem_erase ho')
  calc heldSum weight db'
      = held db' o + ∑ o' ∈ orders.erase o, held db' o' := by
        rw [heldSum_eq hnil hdb']
        exact (Finset.add_sum_erase orders (held db') ho).symm
    _ = held db o + ∑ o' ∈ orders.erase o, held db o' + moved := by
        rw [hrest, show held db' o = held db o + moved from hself]
        ring
    _ = heldSum weight db + moved := by
        rw [heldSum_eq hnil hdb]
        exact congrArg (· + moved) (Finset.add_sum_erase orders (held db) ho)

theorem heldSum_congr (h : ∀ o, weight (heldLines (inventoryEvents db' o)) =
    weight (heldLines (inventoryEvents db o))) : heldSum weight db' = heldSum weight db := by
  simpa using heldSum_step hnil "" 0 (by rw [h, add_zero]) fun o _ => h o

end HeldSum

/-! ## The ledger -/

section Ledger

variable {t : Task} {seen start : Db} {s s' : Shared}

theorem heldBy_eq {db : Db} {o : Uuid} {rows : List (EventStoreRow .inventory)}
    (h : HasStream .inventory db o rows) (sku : String) :
    heldBy db o sku = qtyOf sku (heldLines (eventsOf rows)) := by
  unfold heldBy
  rw [inventoryEvents_eq h]

theorem StockMoves.known {db db' : Db} {moved : String → Num} (h : StockMoves db db' moved)
    {sku : String} (hknown : stockLevel db sku ≠ none) : stockLevel db' sku ≠ none := by
  obtain ⟨row, hrow⟩ := Option.ne_none_iff_exists'.mp hknown
  obtain ⟨row', hrow', -⟩ := h.level sku row hrow
  rw [hrow']
  simp

/-- The command's lines ask for positive whole numbers. -/
def AsksPositive (t : Task) : Prop :=
  ∀ r, t = .command .inventory r → ∀ lines, r.value.payload.lines = some lines → PositiveLines lines

/-- What a step does to the inventory: nothing, or one event of a stream after
the stock was moved for it. -/
theorem ServiceStep.inventory_cases (h : ServiceStep t seen s s') :
    ((∀ o rows, HasStream .inventory s'.db o rows ↔ HasStream .inventory s.db o rows) ∧
      ∀ sku, stockLevel s'.db sku = stockLevel s.db sku) ∨
    ∃ o rows r db, Appends s t .inventory o rows r ∧ StockEffect .inventory rows r.event s.db db ∧
      Appended s s' .inventory o rows r ∧ (∀ sku, stockLevel s'.db sku = stockLevel db sku) ∧
      ∃ w, s' = s.commit t w := by
  cases h with
  | acted a res _ => exact .inl ⟨fun _ _ => Iff.rfl, fun _ => rfl⟩
  | @appended svc id rows r oid db w happ hstock hsaved _ =>
    have hlevels : ∀ sku, stockLevel (w ++ s.db) sku = stockLevel db sku :=
      fun sku => hsaved.frame (.stockLevel sku) not_false
    have happended := appended_of_saved (t := t) hstock.onlyStock hsaved
    by_cases hsvc : svc = .inventory
    · subst hsvc
      exact .inr ⟨id, rows, r, db, happ, hstock, happended, hlevels, w, rfl⟩
    · refine .inl ⟨fun o rows => happended.others fun heq => hsvc heq.1.symm, ?_⟩
      have hsame : db = s.db := by
        cases svc with
        | order => exact hstock
        | payment => exact hstock
        | inventory => exact absurd rfl hsvc
      rw [hsame] at hlevels
      exact hlevels
  | @sagaSaved r orderId decision row _ _ _ =>
    have hrow : ∀ k, k ≠ .sagaInstance orderId →
        Store.row (s.commit t [⟨.sagaInstance orderId, row⟩]).db k = Store.row s.db k :=
      fun k hk => @Store.row_cons_ne _ _ _ s.db _ (.sagaInstance orderId) row hk
    refine .inl ⟨fun o rows => ?_, fun sku => hrow _ (by simp)⟩
    unfold HasStream
    simp only [hrow (.eventStore _ _ _) (by simp)]

/-- Every counter is what it was at the start and what is held. -/
structure Ledger (start : Db) (s : Shared) : Prop where
  shape : ∀ o rows, HasStream .inventory s.db o rows → ReservationStream o (eventsOf rows)
  positive : ∀ o rows, HasStream .inventory s.db o rows → PositiveLines (heldLines (eventsOf rows))
  known : ∀ o rows, HasStream .inventory s.db o rows →
    ∀ line ∈ heldLines (eventsOf rows), stockLevel s.db line.sku ≠ none
  balance : StockMoves start s.db (totalHeld s.db)

/-- An event appended after the stock was moved for it. -/
theorem Ledger.append (hI : Ledger start s) (hdb : Consistent s.db) {o : Uuid}
    {rows : List (EventStoreRow .inventory)} {r : EventStoreRow .inventory} {moved : String → Num}
    (happ : Appended s s' .inventory o rows r) (hmoves : StockMoves s.db s'.db moved)
    (hshape : ReservationStream o (eventsOf (rows ++ [r])))
    (hpositive : PositiveLines (heldLines (eventsOf (rows ++ [r]))))
    (hknown : ∀ line ∈ heldLines (eventsOf (rows ++ [r])), stockLevel s.db line.sku ≠ none)
    (hmoved : ∀ sku, qtyOf sku (heldLines (eventsOf (rows ++ [r]))) =
      qtyOf sku (heldLines (eventsOf rows)) + moved sku) : Ledger start s' := by
  constructor
  · intro o' rows' h'
    rcases happ.cases h' with ⟨rfl, rfl⟩ | h
    · exact hshape
    · exact hI.shape o' rows' h
  · intro o' rows' h'
    rcases happ.cases h' with ⟨rfl, rfl⟩ | h
    · exact hpositive
    · exact hI.positive o' rows' h
  · intro o' rows' h' line hline
    rcases happ.cases h' with ⟨rfl, rfl⟩ | h
    · exact hmoves.known (hknown line hline)
    · exact hmoves.known (hI.known o' rows' h line hline)
  · refine hI.balance.trans hmoves fun sku =>
      heldSum_step (qtyOf_nil sku) o _ ?_ fun o' hne => ?_
    · show heldBy _ o sku = heldBy _ o sku + _
      rw [heldBy_eq happ.after, heldBy_eq happ.before, hmoved]
    · obtain ⟨rows', hrows'⟩ := hdb.stream .inventory o'
      show heldBy _ o' sku = heldBy _ o' sku
      rw [heldBy_eq hrows', heldBy_eq ((happ.others fun hsame => hne hsame.2).mpr hrows')]

/-- What an event does to the counters. -/
def movedBy (rows : List (EventStoreRow .inventory)) : InventoryEvent → String → Num
  | .inventoryReserved p, sku => qtyOf sku p.lines
  | .inventoryReservationFailed _, _ => 0
  | .inventoryReleased _, sku => - qtyOf sku (heldLines (eventsOf rows))

/-- The stock moves as the appended event says. -/
theorem Ledger.moves (hI : Ledger start s) (ht : AsksPositive t) {o : Uuid}
    {rows : List (EventStoreRow .inventory)} {r : EventStoreRow .inventory} {db : Db}
    (happ : Appends s t .inventory o rows r) (hrows : HasStream .inventory s.db o rows)
    (hstock : StockEffect .inventory rows r.event s.db db) :
    StockMoves s.db db (movedBy rows r.event) := by
  cases happ with
  | @reserved r _ _ lines _ _ _ hlines =>
    exact moves_incrementLines (ht r rfl lines hlines) (runs_reserveLines.mp hstock).2
  | failed _ _ =>
    rw [show db = s.db from hstock]
    exact .of_eq fun _ => rfl
  | released _ _ _ hstatus =>
    obtain ⟨reservationId, lines, hevents, -, hlines⟩ := (hI.shape o rows hrows).eq_reserved hstatus
    have hrelease : Tx.Runs s.db (releaseLinesWithinTransaction lines) () db := by
      rw [← hlines]
      exact hstock
    have hpositive := hI.positive o rows hrows
    rw [hevents] at hpositive
    unfold movedBy
    rw [hevents]
    exact moves_releaseLines hpositive hrelease

/-- **Every step keeps the ledger.** -/
theorem Ledger.step (hI : Ledger start s) (hdb : Consistent s.db) (ht : AsksPositive t)
    (h : ServiceStep t seen s s') : Ledger start s' := by
  rcases h.inventory_cases with
    ⟨hstreams, hlevels⟩ | ⟨o, rows, r, db, happ, hstock, happended, hlevels, -⟩
  · refine ⟨fun o rows h => hI.shape o rows ((hstreams o rows).mp h),
      fun o rows h => hI.positive o rows ((hstreams o rows).mp h), fun o rows h line hline => ?_, ?_⟩
    · rw [hlevels]
      exact hI.known o rows ((hstreams o rows).mp h) line hline
    · refine hI.balance.trans (.of_eq hlevels) fun sku => ?_
      rw [add_zero]
      refine heldSum_congr (qtyOf_nil sku) fun o => ?_
      obtain ⟨rows, hrows⟩ := hdb.stream .inventory o
      show heldBy _ o sku = heldBy _ o sku
      rw [heldBy_eq hrows, heldBy_eq ((hstreams o rows).mpr hrows)]
  · have hmoves : StockMoves s.db s'.db (movedBy rows r.event) :=
      (hI.moves ht happ happended.before hstock).trans (.of_eq hlevels) fun _ => (add_zero _).symm
    cases happ with
    | @reserved r _ reservationId lines time _ _ hlines =>
      obtain ⟨hchecked, -⟩ := runs_reserveLines.mp hstock
      refine hI.append hdb happended hmoves (.reserved reservationId lines) (ht r rfl lines hlines)
        (fun line hline => ?_) fun sku => (zero_add _).symm
      obtain ⟨row, hrow, -⟩ := hchecked line hline
      exact Option.ne_none_iff_exists'.mpr ⟨row, hrow⟩
    | failed _ _ =>
      exact hI.append hdb happended hmoves (.failed _ _) nofun nofun fun sku => (add_zero _).symm
    | @released r _ _ time _ _ hne hstatus =>
      obtain ⟨reservationId, lines, hevents, hid, -⟩ :=
        (hI.shape o rows happended.before).eq_reserved hstatus
      rw [hid] at happended hmoves
      have hafter := eventsOf_snoc rows (eventRow .inventory (.inventoryReleased
        { reservationId := some reservationId, orderId := o }) time r.value.correlationId)
      rw [hevents] at hafter
      refine hI.append hdb happended hmoves ?_ ?_ ?_ fun sku => ?_
      all_goals rw [hafter]
      · exact .released reservationId lines
      · exact nofun
      · exact nofun
      · exact (add_neg_cancel _).symm

end Ledger

/-! ## The inventory service -/

/-- The inventory service over the table `db`: its commands, by any number of
handlers, with any statement or commit failing. -/
def inventorySystem (db : Db) : System where
  code := code
  start := fun s => s = ⟨db, []⟩
  spawn := fun _ t => (∃ r, t = .command .inventory r) ∧ AsksPositive t
  reply := fun _ _ _ _ => True
  fault := databaseFault

section InventorySystem

variable {db : Db} {G : Guard}

theorem inventorySystem_keeps (hdb : Fresh db) : (inventorySystem db).Keeps serviceProtocol G :=
  keepsServiceProtocol rfl fun s hs => by
    rw [show s = ⟨db, []⟩ from hs]
    exact hdb.consistent

theorem Ledger.fresh (hdb : Fresh db) : Ledger db ⟨db, []⟩ := by
  refine ⟨fun o rows h => ?_, fun o rows h => ?_, fun o rows h => ?_, ?_⟩
  · rw [hdb.stream_nil h]
    exact .untried
  · rw [hdb.stream_nil h]
    exact nofun
  · rw [hdb.stream_nil h]
    exact nofun
  · have hzero : totalHeld db = fun _ => 0 := by
      funext sku
      refine Finset.sum_eq_zero fun o _ => ?_
      rw [heldBy_eq (hdb.hasStream .inventory o)]
      rfl
    show StockMoves db db (totalHeld db)
    rw [hzero]
    exact .of_eq fun _ => rfl

/-- The ledger holds in every run. -/
theorem ledger_of_reach (hdb : Fresh db) {s : State} (h : Reach (inventorySystem db) G s) :
    Ledger db s.shared :=
  Protocol.invariant_of_took (inventorySystem_keeps hdb) (T := fun _ => AsksPositive)
    (fun _ _ hspawn => hspawn.2) (fun _ _ _ _ ht => ht)
    (fun s hs => by
      rw [show s = ⟨db, []⟩ from hs]
      exact .fresh hdb)
    (fun _ _ _ _ hinv htook hI hguar => hI.step hinv htook.task hguar) h

end InventorySystem

def qtyReserved (db : Db) (sku : String) : ℤ := ((stockLevel db sku).map (·.qtyReserved)).getD 0

/-- **The stock ledger is conserved.**  Every order was not tried, is reserved,
failed or released, and every counter is what the reserved orders hold. -/
theorem stockConserved (db : Db) (hfresh : Fresh db)
    (hzero : ∀ sku row, stockLevel db sku = some row → row.qtyReserved = 0) (s : LockState)
    (h : LockReach (inventorySystem db) anything s) :
    (∀ o, ∃ rows, HasStream .inventory s.base.shared.db o rows ∧
      ReservationStream o (eventsOf rows)) ∧
    ∀ sku, (qtyReserved s.base.shared.db sku : Num) = totalHeld s.base.shared.db sku := by
  have hledger := ledger_of_reach hfresh h.atomic.2
  have hdb := (Protocol.sound (inventorySystem_keeps hfresh) h.atomic.2).inv
  refine ⟨fun o => ?_, fun sku => ?_⟩
  · obtain ⟨rows, hrows⟩ := Consistent.stream hdb .inventory o
    exact ⟨rows, hrows, hledger.shape o rows hrows⟩
  · unfold qtyReserved
    cases hstart : stockLevel db sku with
    | some row =>
      obtain ⟨row', hrow', -, hreserved⟩ := hledger.balance.level sku row hstart
      rw [hzero sku row hstart] at hreserved
      rw [hrow']
      simpa using hreserved
    | none =>
      have hnone := hledger.balance.unknown sku hstart
      have hheld : totalHeld s.base.shared.db sku = 0 := by
        refine Finset.sum_eq_zero fun o _ => ?_
        obtain ⟨rows, hrows⟩ := Consistent.stream hdb .inventory o
        rw [heldBy_eq hrows]
        refine qtyOf_eq_zero fun line hline heq => ?_
        exact hledger.known o rows hrows line hline (heq ▸ hnone)
      rw [hnone, hheld]
      rfl

/-- Five of one SKU. -/
def fiveInStock : Db :=
  [⟨.stockLevel "A", { description := "a", qtyAvailable := 5, qtyReserved := 0 }⟩]

theorem fresh_fiveInStock : Fresh fiveInStock := by
  intro k hk
  refine Store.row_cons_ne _ _ fun heq => hk ?_
  rw [heq]
  trivial

theorem level_fiveInStock {sku : String} {row : StockLevelRow}
    (h : stockLevel fiveInStock sku = some row) : row.qtyAvailable = 5 ∧ row.qtyReserved = 0 := by
  by_cases hsku : sku = "A"
  · subst hsku
    cases h
    exact ⟨rfl, rfl⟩
  · have hne : Key.stockLevel sku ≠ .stockLevel "A" := by simpa using hsku
    rw [stockLevel, fiveInStock, Store.row_cons_ne _ _ hne] at h
    cases h

def reserveStock (offset : ℕ) (o : Uuid) (lines : List ReservationLine) : Task :=
  .command .inventory (commandRecord offset .reserveStock { orderId := some o, lines := some lines })

def releaseInventory (offset : ℕ) (o r : Uuid) : Task :=
  .command .inventory
    (commandRecord offset .releaseInventory { orderId := some o, reservationId := some r })

/-- Two orders reserve, one of them over two lines and then released. -/
theorem stockConserved_released : ∃ s : LockState, qtyReserved s.base.shared.db "A" = 1 ∧
    (∀ o, ∃ rows, HasStream .inventory s.base.shared.db o rows ∧
      ReservationStream o (eventsOf rows)) ∧
    ∀ sku, (qtyReserved s.base.shared.db sku : Num) = totalHeld s.base.shared.db sku := by
  have hreach : Reach (inventorySystem fiveInStock) anything (.idle ((inventorySystem
      fiveInStock).runs allWell [reserveStock 0 order₁ [⟨"A", 2⟩, ⟨"A", 1⟩],
        reserveStock 1 order₂ [⟨"A", 1⟩], releaseInventory 2 order₁ (uuidOf 0)] ⟨fiveInStock, []⟩)) := by
    refine Reach.runs _ (.start rfl) (fun s t ht => ?_) fun _ _ _ _ => trivial
    simp only [List.mem_cons, List.not_mem_nil, or_false] at ht
    rcases ht with rfl | rfl | rfl
    all_goals refine ⟨⟨_, rfl⟩, fun r hr lines hlines => ?_⟩
    all_goals cases hr; cases hlines
    · intro line hline
      simp only [List.mem_cons, List.not_mem_nil, or_false] at hline
      rcases hline with rfl | rfl
      · exact ⟨2, by decide, rfl⟩
      · exact ⟨1, by decide, rfl⟩
    · intro line hline
      rw [List.mem_singleton] at hline
      subst hline
      exact ⟨1, by decide, rfl⟩
  refine ⟨_, ?_, stockConserved fiveInStock fresh_fiveInStock
    (fun _ _ hrow => (level_fiveInStock hrow).2) _ hreach.withLocks⟩
  decide +kernel

end Saganova
