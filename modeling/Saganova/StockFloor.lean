import Mathlib.Tactic.Positivity
import Saganova.StockLedger

/-!
# What counters never fall below

Quantities that are not negative, whole or not.  A numeric assigned to an
`INTEGER` column is rounded, so a line adds `units` to a counter and takes at
most as many away again.  Every counter is at least what is held, in units
(`StockFloor`), and taking the lines of any order away from it once more stays
within the column (`StockFloor.release`).
-/

namespace Saganova

open Concurrency StockRepository

/-! ## Units -/

section Round

variable {n : ℤ} {q : Num}

theorem roundNumeric_nonneg (hq : 0 ≤ q) : 0 ≤ roundNumeric q := by
  unfold roundNumeric
  rw [if_pos hq]
  exact Int.floor_nonneg.mpr (by positivity)

theorem roundNumeric_add (hn : 0 ≤ n) (hq : 0 ≤ q) :
    roundNumeric (n + q) = n + roundNumeric q := by
  have hn' : (0 : Num) ≤ n := by exact_mod_cast hn
  unfold roundNumeric
  rw [if_pos hq, if_pos (by positivity), add_assoc, Int.floor_intCast_add]

/-- Taking a quantity away takes at most its units. -/
theorem roundNumeric_sub (hq : 0 ≤ q) :
    n - roundNumeric q ≤ roundNumeric (n - q) ∧ roundNumeric (n - q) ≤ n := by
  have hfloor := Int.lt_floor_add_one (q + 1 / 2)
  have hround : roundNumeric q = ⌊q + 1 / 2⌋ := if_pos hq
  by_cases hpos : 0 ≤ (n : Num) - q
  · have hsub : roundNumeric (n - q) = ⌊(n : Num) - q + 1 / 2⌋ := if_pos hpos
    rw [hround, hsub]
    constructor
    · rw [Int.le_floor]
      push_cast
      linarith
    · rw [← Int.lt_add_one_iff, Int.floor_lt]
      push_cast
      linarith
  · have hsub : roundNumeric (n - q) = ⌈(n : Num) - q - 1 / 2⌉ := if_neg hpos
    have hceil : ⌈(n : Num) - q - 1 / 2⌉ = n - ⌊q + 1 / 2⌋ := by
      rw [sub_sub, sub_eq_add_neg, Int.ceil_intCast_add, Int.ceil_neg]
      ring
    rw [hround, hsub, hceil]
    have hnonneg := roundNumeric_nonneg hq
    rw [hround] at hnonneg
    omega

end Round

/-- The line, in the units it moves a counter by. -/
def units (line : ReservationLine) : ReservationLine :=
  { line with qty := roundNumeric line.qty }

/-- What the lines add to the counter of a SKU. -/
def unitsOf (sku : String) (lines : List ReservationLine) : Num := qtyOf sku (lines.map units)

@[simp] theorem unitsOf_nil (sku : String) : unitsOf sku [] = 0 := rfl

theorem unitsOf_cons (sku : String) (line : ReservationLine) (lines : List ReservationLine) :
    unitsOf sku (line :: lines) =
      (if line.sku = sku then (roundNumeric line.qty : Num) else 0) + unitsOf sku lines :=
  qtyOf_cons sku (units line) (lines.map units)

/-- No line asks for less than nothing. -/
def NonnegLines (lines : List ReservationLine) : Prop := ∀ line ∈ lines, 0 ≤ line.qty

theorem NonnegLines.unitsOf_nonneg {lines : List ReservationLine} (h : NonnegLines lines)
    (sku : String) : 0 ≤ unitsOf sku lines := by
  induction lines with
  | nil => exact le_refl 0
  | cons line lines ih =>
    obtain ⟨hline, hlines⟩ := List.forall_mem_cons.mp h
    have hround : (0 : Num) ≤ roundNumeric line.qty := by exact_mod_cast roundNumeric_nonneg hline
    rw [unitsOf_cons]
    refine add_nonneg ?_ (ih hlines)
    split
    · exact hround
    · exact le_refl 0

theorem unitsOf_eq_zero {sku : String} {lines : List ReservationLine}
    (h : ∀ line ∈ lines, line.sku ≠ sku) : unitsOf sku lines = 0 := by
  refine qtyOf_eq_zero fun line hline => ?_
  obtain ⟨line', hline', rfl⟩ := List.mem_map.mp hline
  exact h line' hline'

/-! ## Moving counters -/

section Moves

variable {db db' : Db} {lines : List ReservationLine} {u : Unit}

/-- Counters that are not negative grow by the units of the lines. -/
theorem units_incrementLines (hlines : NonnegLines lines)
    (hcounters : ∀ sku row, stockLevel db sku = some row → 0 ≤ row.qtyReserved)
    (h : Tx.Runs db (incrementLines lines) u db') :
    StockMoves db db' fun sku => unitsOf sku lines := by
  induction lines generalizing db with
  | nil =>
    obtain ⟨-, rfl⟩ := Tx.runs_pure.mp h
    exact .of_eq fun _ => rfl
  | cons line lines ih =>
    obtain ⟨hline, hlines⟩ := List.forall_mem_cons.mp hlines
    obtain ⟨_, db₁, hupdate, hrest⟩ := Tx.runs_bind.mp h
    have hround : ∀ row, stockLevel db line.sku = some row →
        roundNumeric ((row.qtyReserved : Num) + line.qty) =
          row.qtyReserved + roundNumeric line.qty :=
      fun row hrow => roundNumeric_add (hcounters _ row hrow) hline
    have hmove := moves_updateReserved hupdate hround
    refine hmove.trans (ih hlines (fun sku row hrow => ?_) hrest) fun sku => unitsOf_cons sku line lines
    obtain ⟨old, hold, -, hreserved⟩ := hmove.origin hrow
    have hold' := hcounters sku old hold
    have hround := roundNumeric_nonneg hline
    split at hreserved
    · have hsum : row.qtyReserved = old.qtyReserved + roundNumeric line.qty := by
        exact_mod_cast hreserved
      omega
    · have hsame : row.qtyReserved = old.qtyReserved := by
        rw [add_zero] at hreserved
        exact_mod_cast hreserved
      omega

/-- Counters fall by at most the units of the lines. -/
theorem units_releaseLines (hlines : NonnegLines lines)
    (h : Tx.Runs db (releaseLinesWithinTransaction lines) u db') :
    ∃ moved, StockMoves db db' moved ∧ ∀ sku, -unitsOf sku lines ≤ moved sku ∧ moved sku ≤ 0 := by
  induction lines generalizing db with
  | nil =>
    obtain ⟨-, rfl⟩ := Tx.runs_pure.mp h
    exact ⟨_, .of_eq fun _ => rfl, fun sku => by simp⟩
  | cons line lines ih =>
    obtain ⟨hline, hlines⟩ := List.forall_mem_cons.mp hlines
    obtain ⟨_, db₁, hupdate, hrest⟩ := Tx.runs_bind.mp h
    obtain ⟨q, hq, hround⟩ : ∃ q : ℤ, (-roundNumeric line.qty ≤ q ∧ q ≤ 0) ∧
        ∀ row, stockLevel db line.sku = some row →
          roundNumeric ((row.qtyReserved : Num) - line.qty) = row.qtyReserved + q := by
      cases hrow : stockLevel db line.sku with
      | none => exact ⟨0, ⟨by have := roundNumeric_nonneg hline; omega, le_refl 0⟩, nofun⟩
      | some row =>
        have hsub := roundNumeric_sub (n := row.qtyReserved) hline
        refine ⟨roundNumeric ((row.qtyReserved : Num) - line.qty) - row.qtyReserved,
          ⟨by omega, by omega⟩, fun row' hrow' => ?_⟩
        cases hrow'
        ring
    obtain ⟨moved, hmoves, hbounds⟩ := ih hlines hrest
    refine ⟨_, (moves_updateReserved hupdate hround).trans hmoves fun sku => rfl, fun sku => ?_⟩
    obtain ⟨hlow, hhigh⟩ := hbounds sku
    have hq₁ : -(roundNumeric line.qty : Num) ≤ q := by exact_mod_cast hq.1
    have hq₂ : (q : Num) ≤ 0 := by exact_mod_cast hq.2
    rw [unitsOf_cons]
    split
    · constructor
      · linarith
      · linarith
    · constructor
      · linarith
      · linarith

/-- Counters that fall stay below any bound. -/
theorem StockMoves.upper {moved : String → Num} (h : StockMoves db db' moved)
    (hfall : ∀ sku, moved sku ≤ 0) {sku : String} {row : StockLevelRow}
    (hrow : stockLevel db' sku = some row)
    (hupper : ∀ sku row, stockLevel db sku = some row → row.qtyReserved < 2 ^ 31) :
    row.qtyReserved < 2 ^ 31 := by
  obtain ⟨old, hold, -, hreserved⟩ := h.origin hrow
  have hle : (row.qtyReserved : Num) ≤ old.qtyReserved := by
    have hmoved := hfall sku
    linarith
  have hle' : row.qtyReserved ≤ old.qtyReserved := by exact_mod_cast hle
  exact lt_of_le_of_lt hle' (hupper sku old hold)

/-- Lines are released where every counter has room for them. -/
theorem releaseLines_succeeds (hlines : NonnegLines lines)
    (hroom : ∀ sku row, stockLevel db sku = some row → row.qtyReserved < 2 ^ 31 ∧
      (-2 ^ 31 : Num) ≤ row.qtyReserved - unitsOf sku lines) :
    ∃ db', Tx.Runs db (releaseLinesWithinTransaction lines) () db' := by
  induction lines generalizing db with
  | nil => exact ⟨db, Tx.runs_pure.mpr ⟨rfl, rfl⟩⟩
  | cons line lines ih =>
    obtain ⟨hline, hrest⟩ := List.forall_mem_cons.mp hlines
    obtain ⟨db₁, hupdate⟩ : ∃ db₁, Tx.Runs db (decrement line.sku line.qty) () db₁ := by
      cases hrow : stockLevel db line.sku with
      | none => exact ⟨db, runs_updateReserved.mpr (.inl ⟨hrow, rfl⟩)⟩
      | some row =>
        refine ⟨_, runs_updateReserved.mpr (.inr ⟨row, hrow, ?_, rfl⟩)⟩
        obtain ⟨hlow, hhigh⟩ := roundNumeric_sub (n := row.qtyReserved) hline
        obtain ⟨hupper, hlower⟩ := hroom line.sku row hrow
        have hunits := NonnegLines.unitsOf_nonneg hrest line.sku
        rw [unitsOf_cons, if_pos rfl] at hlower
        have hroom' : (-2 ^ 31 : Num) ≤ row.qtyReserved - roundNumeric line.qty := by linarith
        have hroom'' : (-2 ^ 31 : ℤ) ≤ row.qtyReserved - roundNumeric line.qty := by
          exact_mod_cast hroom'
        exact ⟨le_trans hroom'' hlow, lt_of_le_of_lt hhigh hupper⟩
    have hone : NonnegLines [line] := List.forall_mem_cons.mpr ⟨hline, nofun⟩
    obtain ⟨moved, hmoves, hbounds⟩ := units_releaseLines hone
      (Tx.runs_bind.mpr ⟨(), db₁, hupdate, Tx.runs_pure.mpr ⟨rfl, rfl⟩⟩ :
        Tx.Runs db (releaseLinesWithinTransaction [line]) () db₁)
    have hroom₁ : ∀ sku row, stockLevel db₁ sku = some row → row.qtyReserved < 2 ^ 31 ∧
        (-2 ^ 31 : Num) ≤ row.qtyReserved - unitsOf sku lines := by
      intro sku row hrow
      refine ⟨hmoves.upper (fun sku => (hbounds sku).2) hrow fun sku row h => (hroom sku row h).1, ?_⟩
      obtain ⟨old, hold, -, hreserved⟩ := hmoves.origin hrow
      have hlow := (hbounds sku).1
      have hlower := (hroom sku old hold).2
      rw [unitsOf_cons, unitsOf_nil, add_zero] at hlow
      rw [unitsOf_cons] at hlower
      linarith
    obtain ⟨db', hruns⟩ := ih hrest hroom₁
    exact ⟨db', Tx.runs_bind.mpr ⟨(), db₁, hupdate, hruns⟩⟩

/-- An update keeps the counters within their column. -/
theorem int4_incrementLines (h : Tx.Runs db (incrementLines lines) u db')
    (hupper : ∀ sku row, stockLevel db sku = some row → row.qtyReserved < 2 ^ 31) :
    ∀ sku row, stockLevel db' sku = some row → row.qtyReserved < 2 ^ 31 := by
  induction lines generalizing db with
  | nil =>
    obtain ⟨-, rfl⟩ := Tx.runs_pure.mp h
    exact hupper
  | cons line lines ih =>
    obtain ⟨_, db₁, hupdate, hrest⟩ := Tx.runs_bind.mp h
    refine ih hrest fun sku row hrow => ?_
    rcases runs_updateReserved.mp hupdate with ⟨-, rfl⟩ | ⟨old, -, hint, rfl⟩
    · exact hupper sku row hrow
    · by_cases hsku : sku = line.sku
      · subst hsku
        cases (Store.row_cons_self _ _ _).symm.trans hrow
        exact hint.2
      · exact hupper sku row ((Store.row_cons_ne _ _ (by simpa using hsku)).symm.trans hrow)

end Moves

/-! ## The floor -/

/-- No reservation asks for less than nothing. -/
def AsksNonneg (t : Task) : Prop :=
  ∀ r, t = .command .inventory r → r.value.type = .reserveStock →
    ∀ lines, r.value.payload.lines = some lines → NonnegLines lines

/-- Counters are at least what is held, and no order ever held more than a column holds. -/
structure StockFloor (db : Db) : Prop where
  shape : ∀ o rows, HasStream .inventory db o rows → ReservationStream o (eventsOf rows)
  lines : ∀ o rows, HasStream .inventory db o rows →
    NonnegLines (replay .inventory rows).lines ∧
      ∀ sku, unitsOf sku (replay .inventory rows).lines < 2 ^ 31
  counter : ∀ sku row, stockLevel db sku = some row →
    heldSum (unitsOf sku) db ≤ row.qtyReserved ∧ row.qtyReserved < 2 ^ 31

section Floor

variable {t : Task} {seen db : Db} {s s' : Shared} {o : Uuid} {rows : List (EventStoreRow .inventory)}

/-- What is held are the lines of the reservation, or nothing. -/
theorem ReservationStream.heldLines_cases (h : ReservationStream o (eventsOf rows)) :
    heldLines (eventsOf rows) = [] ∨ heldLines (eventsOf rows) = (replay .inventory rows).lines := by
  have hreplay : replay .inventory rows =
      (eventsOf rows).foldl StockAggregate.when StockAggregate.blankState := rfl
  rw [hreplay]
  generalize eventsOf rows = events at h ⊢
  cases h with
  | untried => exact .inl rfl
  | reserved r lines => exact .inr rfl
  | failed sku reason => exact .inl rfl
  | released r lines => exact .inl rfl

theorem StockFloor.heldSum_nonneg (hI : StockFloor db) (hdb : Consistent db) (sku : String) :
    0 ≤ heldSum (unitsOf sku) db := by
  refine Finset.sum_nonneg fun o _ => ?_
  obtain ⟨rows, hrows⟩ := hdb.stream .inventory o
  rw [inventoryEvents_eq hrows]
  rcases (hI.shape o rows hrows).heldLines_cases with hnil | hlines
  · rw [hnil]
    exact le_refl 0
  · rw [hlines]
    exact (hI.lines o rows hrows).1.unitsOf_nonneg sku

theorem StockFloor.counter_nonneg (hI : StockFloor db) (hdb : Consistent db) {sku : String}
    {row : StockLevelRow} (hrow : stockLevel db sku = some row) : 0 ≤ row.qtyReserved := by
  have hheld := hI.heldSum_nonneg hdb sku
  have hle : (0 : Num) ≤ row.qtyReserved := le_trans hheld (hI.counter sku row hrow).1
  exact_mod_cast hle

/-- The lines of any order can be taken away once more. -/
theorem StockFloor.release (hI : StockFloor db) (hdb : Consistent db)
    (hrows : HasStream .inventory db o rows) :
    ∃ db', Tx.Runs db (releaseLinesWithinTransaction (replay .inventory rows).lines) () db' := by
  obtain ⟨hlines, hfits⟩ := hI.lines o rows hrows
  refine releaseLines_succeeds hlines fun sku row hrow => ⟨(hI.counter sku row hrow).2, ?_⟩
  have hpos : (0 : Num) ≤ row.qtyReserved := by exact_mod_cast hI.counter_nonneg hdb hrow
  have hfit := hfits sku
  linarith

/-- An event appended after the stock was moved for it. -/
theorem StockFloor.append (hI : StockFloor s.db) (hdb : Consistent s.db)
    {r : EventStoreRow .inventory} {moved : String → Num}
    (happ : Appended s s' .inventory o rows r) (hmoves : StockMoves s.db s'.db moved)
    (hupper : ∀ sku row, stockLevel s'.db sku = some row → row.qtyReserved < 2 ^ 31)
    (hshape : ReservationStream o (eventsOf (rows ++ [r])))
    (hlines : NonnegLines (replay .inventory (rows ++ [r])).lines ∧
      ∀ sku, unitsOf sku (replay .inventory (rows ++ [r])).lines < 2 ^ 31)
    (hmoved : ∀ sku, unitsOf sku (heldLines (eventsOf (rows ++ [r]))) -
      unitsOf sku (heldLines (eventsOf rows)) ≤ moved sku) : StockFloor s'.db := by
  constructor
  · intro o' rows' h'
    rcases happ.cases h' with ⟨rfl, rfl⟩ | h
    · exact hshape
    · exact hI.shape o' rows' h
  · intro o' rows' h'
    rcases happ.cases h' with ⟨rfl, rfl⟩ | h
    · exact hlines
    · exact hI.lines o' rows' h
  · intro sku row hrow
    refine ⟨?_, hupper sku row hrow⟩
    have hsum : heldSum (unitsOf sku) s'.db = heldSum (unitsOf sku) s.db +
        (unitsOf sku (heldLines (eventsOf (rows ++ [r]))) -
          unitsOf sku (heldLines (eventsOf rows))) := by
      refine heldSum_step (unitsOf_nil sku) o _ ?_ fun o' hne => ?_
      · rw [inventoryEvents_eq happ.after, inventoryEvents_eq happ.before]
        ring
      · obtain ⟨rows', hrows'⟩ := hdb.stream .inventory o'
        rw [inventoryEvents_eq hrows',
          inventoryEvents_eq ((happ.others fun hsame => hne hsame.2).mpr hrows')]
    obtain ⟨old, hold, -, hreserved⟩ := hmoves.origin hrow
    have hfloor := (hI.counter sku old hold).1
    have hmove := hmoved sku
    rw [hsum, hreserved]
    linarith

/-- What was reserved fits its column, as the counters after it do. -/
theorem StockFloor.reservation_fits (hI : StockFloor db) (hdb : Consistent db) {db' : Db}
    {lines : List ReservationLine} (hchecked : ∀ line ∈ lines, stockLevel db line.sku ≠ none)
    (hmoves : StockMoves db db' fun sku => unitsOf sku lines)
    (hupper : ∀ sku row, stockLevel db' sku = some row → row.qtyReserved < 2 ^ 31) (sku : String) :
    unitsOf sku lines < 2 ^ 31 := by
  cases hold : stockLevel db sku with
  | none =>
    rw [unitsOf_eq_zero fun line hline heq => hchecked line hline (heq ▸ hold)]
    norm_num
  | some old =>
    obtain ⟨row, hrow, -, hreserved⟩ := hmoves.level sku old hold
    have hpos : (0 : Num) ≤ old.qtyReserved := by exact_mod_cast hI.counter_nonneg hdb hold
    have hrow' : (row.qtyReserved : Num) < 2 ^ 31 := by exact_mod_cast hupper sku row hrow
    linarith

/-- **Every step keeps the floor.** -/
theorem StockFloor.step (hI : StockFloor s.db) (hdb : Consistent s.db) (ht : AsksNonneg t)
    (h : ServiceStep t seen s s') : StockFloor s'.db := by
  rcases h.inventory_cases with
    ⟨hstreams, hlevels⟩ | ⟨o, rows, r, db, happ, hstock, happended, hlevels, -⟩
  · refine ⟨fun o rows h => hI.shape o rows ((hstreams o rows).mp h),
      fun o rows h => hI.lines o rows ((hstreams o rows).mp h), fun sku row hrow => ?_⟩
    rw [hlevels] at hrow
    have hsame : heldSum (unitsOf sku) s'.db = heldSum (unitsOf sku) s.db := by
      refine heldSum_congr (unitsOf_nil sku) fun o => ?_
      obtain ⟨rows, hrows⟩ := hdb.stream .inventory o
      rw [inventoryEvents_eq hrows, inventoryEvents_eq ((hstreams o rows).mpr hrows)]
    rw [hsame]
    exact hI.counter sku row hrow
  · have hupper : ∀ sku row, stockLevel s.db sku = some row → row.qtyReserved < 2 ^ 31 :=
      fun sku row hrow => (hI.counter sku row hrow).2
    have hbefore := hI.shape o rows happended.before
    cases happ with
    | @reserved r _ reservationId lines time htype _ hlines =>
      have hnonneg := ht r rfl htype lines hlines
      obtain ⟨hchecked, hincrement⟩ := runs_reserveLines.mp hstock
      have hmoves : StockMoves s.db s'.db fun sku => unitsOf sku lines :=
        (units_incrementLines hnonneg (fun sku row => hI.counter_nonneg hdb) hincrement).trans
          (.of_eq hlevels) fun _ => (add_zero _).symm
      have hupper' : ∀ sku row, stockLevel s'.db sku = some row → row.qtyReserved < 2 ^ 31 := by
        intro sku row hrow
        rw [hlevels] at hrow
        exact int4_incrementLines hincrement hupper sku row hrow
      refine hI.append hdb happended hmoves hupper' (.reserved reservationId lines)
        ⟨hnonneg, hI.reservation_fits hdb (fun line hline => ?_) hmoves hupper'⟩ fun sku => ?_
      · obtain ⟨row, hrow, -⟩ := hchecked line hline
        exact Option.ne_none_iff_exists'.mpr ⟨row, hrow⟩
      · show unitsOf sku lines - unitsOf sku [] ≤ unitsOf sku lines
        rw [unitsOf_nil, sub_zero]
    | @failed r _ sku reason time _ _ =>
      have hsame : db = s.db := hstock
      have hupper' : ∀ sku row, stockLevel s'.db sku = some row → row.qtyReserved < 2 ^ 31 := by
        intro sku row hrow
        rw [hlevels, hsame] at hrow
        exact hupper sku row hrow
      refine hI.append hdb happended (.of_eq fun sku => (hlevels sku).trans (by rw [hsame])) hupper'
        (.failed sku reason) ⟨nofun, fun sku => ?_⟩ fun sku => ?_
      · show unitsOf sku [] < 2 ^ 31
        rw [unitsOf_nil]
        norm_num
      · show unitsOf sku [] - unitsOf sku [] ≤ 0
        simp
    | @released r _ _ time _ _ hne hstatus =>
      obtain ⟨reservationId, lines, hevents, hid, hlines⟩ := hbefore.eq_reserved hstatus
      obtain ⟨hnonneg, hfits⟩ := hI.lines o rows happended.before
      obtain ⟨moved, hmoves, hbounds⟩ := units_releaseLines hnonneg hstock
      rw [hid] at happended
      have hafter := eventsOf_snoc rows (eventRow .inventory (.inventoryReleased
        { reservationId := some reservationId, orderId := o }) time r.value.correlationId)
      rw [hevents] at hafter
      have hmoves' := hmoves.trans (.of_eq hlevels) fun _ => (add_zero _).symm
      refine hI.append hdb happended hmoves' (fun sku row hrow => ?_) ?_ ?_ fun sku => ?_
      · exact hmoves'.upper (fun sku => (hbounds sku).2) hrow hupper
      · rw [hafter]
        exact .released reservationId lines
      · rw [replay_snoc]
        exact ⟨hnonneg, hfits⟩
      · rw [hafter, hevents]
        have hmoved := (hbounds sku).1
        rw [hlines] at hmoved
        show unitsOf sku [] - unitsOf sku lines ≤ moved sku
        rw [unitsOf_nil, zero_sub]
        exact hmoved

end Floor

end Saganova
