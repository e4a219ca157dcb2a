import Saganova.Concurrency.Knowledge
import Saganova.Concurrency.Sequential
import Saganova.ServiceHandlers
import Saganova.UuidColumns

/-!
# Event store, outbox and read model never disagree

Any number of tasks of any kind, interleaved statement by statement under row
locks, over a database whose event stores are empty: every committed state is
`Consistent`.  Over the columns, which are TEXT in the event store and UUID in
the read model, so it is for the commands of ids that no column respells
(`storesAgree`).
-/

namespace Saganova

open Concurrency

/-- Every task may be started at any time, the outside may answer anything, and
any statement or commit may fail. -/
def serviceSystem : System where
  code := code
  start := fun s => Fresh s.db ∧ s.trace = []
  spawn := fun _ _ => True
  reply := fun _ _ _ _ => True
  fault := databaseFault

theorem serviceSystem_keeps {G : Guard} : serviceSystem.Keeps serviceProtocol G :=
  keepsServiceProtocol rfl fun _ h => h.1.consistent

/-- The columns make no difference to commands whose ids they do not respell. -/
theorem columnSystem_follows : columnSystem.Follows serviceSystem SpelledCommits Task.Spelled
    (Store.All RowSpelled) Drawn where
  start s hstart := ⟨rowSpelled_fresh hstart.1, s, hstart, rfl⟩
  spawn _ _ := trivial
  code t ht := by
    cases t with
    | command svc record => exact follows_columns (spelled_queriedId ht) (handlerSpelled_command ht)
    | _ => exact ht.elim
  reply _ _ _ _ hr := ⟨hr, fun _ => trivial⟩
  fault _ he := he
  commits _ _ _ _ hg hj := hg _ _ rfl hj

/-- **Event store, outbox and read model never disagree**, where no UUID column
respells an id of a command that commits. -/
theorem storesAgree (s : LockState) (h : LockReach columnSystem SpelledCommits s) (svc : Service)
    (id : String) : ∃ rows oids, HasStream svc s.base.shared.db id rows ∧
      Outboxed svc s.base.shared.db id rows oids ∧ Projected svc s.base.shared.db id rows := by
  obtain ⟨s', hs'⟩ := h.atomic.2.follows columnSystem_follows
  have hconsistent := (Protocol.sound serviceSystem_keeps hs'.reach).inv
  rw [← hs'.db]
  exact hconsistent.aggregate svc id

/-! ## Runs -/

/-- A record of `saga.commands`. -/
def commandRecord (offset : ℕ) (type : CommandType) (payload : Payload) : Record CommandEnvelope where
  topic := .sagaCommands
  partition := 0
  offset := offset
  value :=
    { id := uuidOf offset, type, version := eventEnvelopeVersion, correlationId := "c"
      issuedAt := "t", payload }

/-- Ids that differ from one draw to the next, a gateway that charges, and a
broker that confirms. -/
def allWell (k : ℕ) : (a : Act) → Act.Reply a
  | .randomUUID => uuidOf k
  | .randomUUIDs => rowId k
  | .now => "t"
  | .publish _ _ _ => .ok ()
  | .authorize _ => ⟨true, .ok { success := true, pspReference := some "psp" }⟩
  | .refund _ _ _ => .ok { refundId := "refund" }
  | .commitOffsets _ _ _ => .ok ()

/-- The same with ids that are UUIDs however many are drawn. -/
def drawnWell (k : ℕ) : (a : Act) → Act.Reply a
  | .randomUUID => uuidOf (k % 16 ^ 12)
  | .randomUUIDs => fun i => uuidOf ((4096 * (k + 1) + i) % 16 ^ 12)
  | a => allWell k a

theorem drawn_drawnWell (k : ℕ) (a : Act) : Drawn a (drawnWell k a) := by
  cases a with
  | randomUUID => exact canonical_uuidOf (Nat.mod_lt _ (by decide))
  | randomUUIDs => exact fun i => canonical_uuidOf (Nat.mod_lt _ (by decide))
  | _ => trivial

/-- Commands handled one after another. -/
theorem reach_commands (tasks : List Task) (hcommands : ∀ t ∈ tasks, ∃ svc r, t = .command svc r) :
    Reach columnSystem anything (.idle (columnSystem.runs drawnWell tasks ⟨[], []⟩)) :=
  Reach.runs _ (.start ⟨fun _ _ => rfl, rfl⟩) (fun _ t ht => hcommands t ht) fun _ _ _ a =>
    drawn_drawnWell _ a

/-- No command is started whose ids a column respells. -/
def spelledSystem : System := { columnSystem with spawn := fun _ t => t.Spelled }

/-- The same where no column respells their ids. -/
theorem reach_spelled (tasks : List Task) (hspelled : ∀ t ∈ tasks, t.Spelled) :
    Reach columnSystem SpelledCommits (.idle (columnSystem.runs drawnWell tasks ⟨[], []⟩)) := by
  have hreach : Reach spelledSystem anything
      (.idle (spelledSystem.runs drawnWell tasks ⟨[], []⟩)) :=
    Reach.runs _ (.start ⟨fun _ _ => rfl, rfl⟩) (fun _ t ht => hspelled t ht) fun _ _ _ a =>
      drawn_drawnWell _ a
  have hknown : Reach spelledSystem (Knowing fun _ t => t.Spelled) _ :=
    hreach.knowing fun s hs => hs.tasks fun _ _ ht => ht
  have hwide : Reach columnSystem (Knowing fun _ t => t.Spelled) _ :=
    hknown.widen rfl (fun _ h => h) (fun _ _ h => h.isCommand) rfl rfl
  have hcode : columnSystem.code = spelledSystem.code := rfl
  rw [System.runs_congr hcode]
  have hmeets : ∀ (s : State) i c, Knowing (fun _ t => t.Spelled) s i c → SpelledCommits s i c :=
    fun s i c hspelled w job _ hj => hspelled job hj
  exact hwide.mono hmeets

def confirmedCheckout : List Task :=
  [.command .order (commandRecord 0 .createOrder
      { orderId := some order₁, customerId := some customer₁
        items := some [{ sku := "A", qty := 1, unitPriceCents := 500 }] }),
    .command .order (commandRecord 1 .confirmOrder
      { orderId := some order₁, paymentId := some payment₁ })]

/-- An order created and confirmed: two events, and all three agree on them. -/
theorem storesAgree_confirmed : ∃ s : LockState,
    (Store.row s.base.shared.db (.eventStore .order order₁ 2)).isSome ∧
    ∃ rows oids, HasStream .order s.base.shared.db order₁ rows ∧
      Outboxed .order s.base.shared.db order₁ rows oids ∧
      Projected .order s.base.shared.db order₁ rows := by
  have hspelled : ∀ t ∈ confirmedCheckout, t.Spelled := by
    refine List.forall_mem_cons.mpr ⟨?_, List.forall_mem_cons.mpr ⟨?_, fun _ h => nomatch h⟩⟩
    · show SpelledCommand _
      decide +kernel
    · show SpelledCommand _
      decide +kernel
  have hreach := reach_spelled confirmedCheckout hspelled
  exact ⟨_, by decide +kernel, storesAgree _ hreach.withLocks .order order₁⟩

/-- The first order's id in capitals. -/
def order₁Capitals : Uuid := "0A000000-0000-4000-8000-000000000001"

def createdTwice : List Task :=
  [.command .order (commandRecord 0 .createOrder
      { orderId := some order₁, customerId := some customer₁
        items := some [{ sku := "A", qty := 1, unitPriceCents := 500 }] }),
    .command .order (commandRecord 1 .createOrder
      { orderId := some order₁Capitals, customerId := some customer₁
        items := some [{ sku := "A", qty := 2, unitPriceCents := 700 }] })]

/-- One UUID spelled in two ways is two streams with one row of the read model:
that of the first shows the second's total. -/
theorem storesAgree_fails : ¬ ∀ s : LockState, LockReach columnSystem anything s →
    ∀ (svc : Service) (id : String), ∃ rows oids, HasStream svc s.base.shared.db id rows ∧
      Outboxed svc s.base.shared.db id rows oids ∧ Projected svc s.base.shared.db id rows := by
  intro h
  have hreach := reach_commands createdTwice (by
    refine List.forall_mem_cons.mpr ⟨⟨_, _, rfl⟩, List.forall_mem_cons.mpr ⟨⟨_, _, rfl⟩, ?_⟩⟩
    exact fun _ h => nomatch h)
  obtain ⟨rows, -, hrows, -, hprojected⟩ := h _ hreach.withLocks .order order₁
  -- the first order's stream
  have hevent : rows[0]?.map (·.event) = some (.orderCreated
      { orderId := order₁, customerId := customer₁
        items := [{ sku := "A", qty := 1, unitPriceCents := 500 }], totalCents := 500 }) := by
    rw [← hrows.2 0]
    decide +kernel
  have hend : rows[1]? = none := by
    rw [← hrows.2 1]
    exact Option.isNone_iff_eq_none.mp (by decide +kernel)
  obtain ⟨r, rfl⟩ : ∃ r, rows = [r] := by
    match rows, hevent, hend with
    | [r], _, _ => exact ⟨r, rfl⟩
  -- the second order's row
  obtain ⟨row, hrow, -, -, -, htotal, -⟩ := hprojected.some_of_ne (by simp)
  have hshown : (Store.row (columnSystem.runs drawnWell createdTwice ⟨[], []⟩).db
      (.projection .order order₁)).map OrderProjectionRow.totalCents = some 1400 := by
    decide +kernel
  rw [show Store.row (columnSystem.runs drawnWell createdTwice ⟨[], []⟩).db
    (.projection .order order₁) = some row from hrow] at hshown
  have hreplayed : (replay .order [r]).totalCents = 500 := by
    have heq : r.event = _ := Option.some.inj hevent
    unfold replay
    rw [List.map_singleton, heq]
    rfl
  rw [hreplayed, Option.some.inj hshown] at htotal
  revert htotal
  decide

end Saganova
