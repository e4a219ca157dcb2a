import Saganova.StockLedger

/-!
# No oversell

A reservation checks each of its lines against what is available, and only
then increments the counters: two lines of one SKU are both checked against
the same number, and may together reserve more than there is
(`stock_oversold`).  Where every reservation that commits fits into the stock
SKU by SKU, the counters stay in their bounds (`noOversell`).
-/

namespace Saganova

open Concurrency

/-- Between nothing and everything is reserved. -/
def StockInBounds (db : Db) : Prop :=
  ∀ sku row, stockLevel db sku = some row →
    0 ≤ row.qtyReserved ∧ row.qtyReserved ≤ row.qtyAvailable

/-- A reservation that commits asks, over all its lines for a SKU, for no more
than is available of it. -/
def ReservationsFit : Guard := fun s _ c =>
  ∀ w, c = .commit w → ∀ o n (row : EventStoreRow .inventory) p,
    Store.row w (.eventStore .inventory o n) = some row → row.event = .inventoryReserved p →
    ∀ sku level, stockLevel s.shared.db sku = some level →
      qtyOf sku p.lines ≤ (level.qtyAvailable - level.qtyReserved : ℤ)

section Bounds

variable {db start : Db} {t : Task} {seen : Db} {s s' : Shared}

theorem totalHeld_nonneg (hI : Ledger start s) (hdb : Consistent s.db) (sku : String) :
    0 ≤ totalHeld s.db sku := by
  refine Finset.sum_nonneg fun o _ => ?_
  obtain ⟨rows, hrows⟩ := hdb.stream .inventory o
  rw [heldBy_eq hrows]
  exact (hI.positive o rows hrows).qtyOf_nonneg sku

/-- No counter is over what is available. -/
def NotOversold (db : Db) : Prop :=
  ∀ sku row, stockLevel db sku = some row → row.qtyReserved ≤ row.qtyAvailable

/-- A committed event is among the rows of its commit. -/
theorem Appended.committed {w : Db} {o : Uuid} {rows : List (EventStoreRow .inventory)}
    {r : EventStoreRow .inventory} (h : Appended s (s.commit t w) .inventory o rows r) :
    Store.row w (.eventStore .inventory o (rows.length + 1)) = some r := by
  have hafter := h.after.2 rows.length
  rw [List.getElem?_concat_length, Shared.commit_db, Store.row_append, h.before.next,
    Option.or_none] at hafter
  exact hafter

/-- An event moves a counter to at most what is available, where its
reservation fits. -/
theorem NotOversold.step (hI : Ledger start s) (hdb : Consistent s.db) (ht : AsksPositive t)
    (hguard : ∀ w, s' = s.commit t w → ∃ st i, st.shared = s ∧ ReservationsFit st i (.commit w))
    (h : ServiceStep t seen s s') (hs : NotOversold s.db) : NotOversold s'.db := by
  rcases h.inventory_cases with
    ⟨-, hlevels⟩ | ⟨o, rows, r, db, happ, hstock, happended, hlevels, w, hw⟩
  · intro sku row hrow
    rw [hlevels] at hrow
    exact hs sku row hrow
  · have hmoves : StockMoves s.db s'.db (movedBy rows r.event) :=
      (hI.moves ht happ happended.before hstock).trans (.of_eq hlevels) fun _ => (add_zero _).symm
    intro sku row hrow
    obtain ⟨old, hbefore, havailable, hreserved⟩ := hmoves.origin hrow
    have hold : (old.qtyReserved : Num) ≤ old.qtyAvailable := by
      exact_mod_cast hs sku old hbefore
    have hmoved : movedBy rows r.event sku ≤ old.qtyAvailable - old.qtyReserved := by
      cases hevent : r.event with
      | inventoryReserved p =>
        obtain ⟨st, i, rfl, hfit⟩ := hguard w hw
        subst hw
        have hle := hfit w rfl o _ r p happended.committed hevent sku old hbefore
        push_cast at hle
        exact hle
      | inventoryReservationFailed p =>
        show (0 : Num) ≤ _
        linarith
      | inventoryReleased p =>
        have hnonneg := (hI.positive o rows happended.before).qtyOf_nonneg sku
        show - qtyOf sku (heldLines (eventsOf rows)) ≤ _
        linarith
    have hle : (row.qtyReserved : Num) ≤ row.qtyAvailable := by
      rw [hreserved, havailable]
      linarith
    exact_mod_cast hle

/-- **No oversell, where every reservation fits.** -/
theorem noOversell (db : Db) (hfresh : Fresh db) (hstart : StockInBounds db) (s : LockState)
    (h : LockReach (inventorySystem db) ReservationsFit s) : StockInBounds s.base.shared.db := by
  have hreach := h.atomic.2
  have hdb := (Protocol.sound (inventorySystem_keeps hfresh) hreach).inv
  have hledger := ledger_of_reach hfresh hreach
  have hover : Ledger db s.base.shared ∧ NotOversold s.base.shared.db := by
    refine Protocol.invariant_of_took (inventorySystem_keeps hfresh) (T := fun _ => AsksPositive)
      (I := fun s => Ledger db s ∧ NotOversold s.db) (fun _ _ hspawn => hspawn.2)
      (fun _ _ _ _ ht => ht) (fun s hs => ?_) (fun t seen s s' hinv htook hI hguar => ?_) hreach
    · rw [show s = ⟨db, []⟩ from hs]
      exact ⟨.fresh hfresh, fun sku row hrow => (hstart sku row hrow).2⟩
    · exact ⟨hI.1.step hinv htook.task hguar,
        hI.2.step hI.1 hinv htook.task htook.guard hguar⟩
  intro sku row hrow
  refine ⟨?_, hover.2 sku row hrow⟩
  obtain ⟨old, hbefore, -, hreserved⟩ := hledger.balance.origin hrow
  have hold : (0 : Num) ≤ old.qtyReserved := by exact_mod_cast (hstart sku old hbefore).1
  have hheld := totalHeld_nonneg hledger hdb sku
  have hle : (0 : Num) ≤ row.qtyReserved := by
    rw [hreserved]
    linarith
  exact_mod_cast hle

end Bounds

/-! ## A reservation that fits, and one that does not -/

/-- `ReservationsFit`, row by row of the table. -/
def fitsLevel (p : InventoryReservedPayload) : (k : Key) → Row k → Bool
  | .stockLevel sku, (level : StockLevelRow) =>
    decide (qtyOf sku p.lines ≤ (level.qtyAvailable - level.qtyReserved : ℤ))
  | _, _ => true

/-- `ReservationsFit`, row by row of the commit. -/
def fitsRow (db : Db) : (k : Key) → Row k → Bool
  | .eventStore .inventory _ _, (row : EventStoreRow .inventory) =>
    match row.event with
    | .inventoryReserved p => db.all fun entry => fitsLevel p entry.1 entry.2
    | _ => true
  | _, _ => true

abbrev RowsFit (db w : Db) : Prop := ∀ entry ∈ w, fitsRow db entry.1 entry.2

theorem reservationsFit_of_rows {st : State} {i : ℕ} {w : Db} (h : RowsFit st.shared.db w) :
    ReservationsFit st i (.commit w) := by
  intro w' hw o n row p hrow hevent sku level hlevel
  cases hw
  have hfits := h _ (List.of_mem_dlookup hrow)
  simp only [fitsRow, hevent, List.all_eq_true] at hfits
  exact of_decide_eq_true (hfits _ (List.of_mem_dlookup hlevel))

theorem stockInBounds_fiveInStock : StockInBounds fiveInStock := by
  intro sku row hrow
  obtain ⟨havailable, hreserved⟩ := level_fiveInStock hrow
  rw [havailable, hreserved]
  decide

theorem asksPositive_reserveStock {offset : ℕ} {o : Uuid} {lines : List ReservationLine}
    (h : PositiveLines lines) : AsksPositive (reserveStock offset o lines) := by
  intro r hr lines' hlines
  cases hr
  cases hlines
  exact h

/-- Three of five, on two lines. -/
theorem noOversell_three : ∃ s : LockState, qtyReserved s.base.shared.db "A" = 3 ∧
    StockInBounds s.base.shared.db := by
  have hpositive : PositiveLines [⟨"A", 2⟩, ⟨"A", 1⟩] := by
    rintro line (_ | ⟨_, _ | ⟨_, hnone⟩⟩)
    · exact ⟨2, by decide, rfl⟩
    · exact ⟨1, by decide, rfl⟩
    · cases hnone
  have hend := Reach.burst (i := 0) allWell (fun _ _ => trivial) 9 _ [] _
    ((Reach.start (S := inventorySystem fiveInStock) (G := ReservationsFit)
      (s := ⟨fiveInStock, []⟩) rfl).step (.spawn (t := reserveStock 0 order₁ [⟨"A", 2⟩, ⟨"A", 1⟩]) rfl
        ⟨⟨_, rfl⟩, asksPositive_reserveStock hpositive⟩) (fun w hc => (nomatch hc)))
    (Proc.burstMeets_of_commits (C := RowsFit) (fun _ w hc => (nomatch hc))
      (fun _ _ => reservationsFit_of_rows) (fun _ _ w hc => (nomatch hc))
      (fun _ _ _ w hc => (nomatch hc)) _ _ _ _ _ _ (by decide +kernel))
  refine ⟨_, ?_, noOversell fiveInStock fresh_fiveInStock stockInBounds_fiveInStock _
    hend.withLocks⟩
  decide +kernel

/-- Six of five: each of two lines of three was checked against five. -/
theorem stock_oversold : ¬ ∀ (db : Db) (s : LockState), Fresh db → StockInBounds db →
    LockReach (inventorySystem db) anything s → StockInBounds s.base.shared.db := by
  intro h
  have hpositive : PositiveLines [⟨"A", 3⟩, ⟨"A", 3⟩] := by
    rintro line (_ | ⟨_, _ | ⟨_, hnone⟩⟩)
    · exact ⟨3, by decide, rfl⟩
    · exact ⟨3, by decide, rfl⟩
    · cases hnone
  have hreach : Reach (inventorySystem fiveInStock) anything (.idle ((inventorySystem
      fiveInStock).runs allWell [reserveStock 0 order₁ [⟨"A", 3⟩, ⟨"A", 3⟩]] ⟨fiveInStock, []⟩)) := by
    refine Reach.runs _ (.start rfl) (fun s t ht => ?_) fun _ _ _ _ => trivial
    rw [List.mem_singleton] at ht
    subst ht
    exact ⟨⟨_, rfl⟩, asksPositive_reserveStock hpositive⟩
  have hbounds := h fiveInStock _ fresh_fiveInStock stockInBounds_fiveInStock hreach.withLocks
  obtain ⟨row, hrow⟩ : ∃ row, stockLevel ((inventorySystem fiveInStock).runs allWell
      [reserveStock 0 order₁ [⟨"A", 3⟩, ⟨"A", 3⟩]] ⟨fiveInStock, []⟩).db "A" = some row ∧
      row.qtyReserved = 6 ∧ row.qtyAvailable = 5 :=
    ⟨{ description := "a", qtyAvailable := 5, qtyReserved := 6 }, by decide +kernel⟩
  have hle := (hbounds "A" row hrow.1).2
  rw [hrow.2.1, hrow.2.2] at hle
  revert hle
  decide

end Saganova
