import Saganova.Concurrency.Simulation
import Saganova.CreatedOrders
import Saganova.OrderQueries

/-!
# The checkout as one state machine

Three services, an orchestrator and the messages between them, seen through the
read models: of each order its status, its reservation's and its payment's
(`orderView`).  `CheckoutMove` is what a checkout is meant to do: eight moves
between nine views.

Every committed step of every run moves one order by one of them, or shows
nothing (`checkoutRefines`).  So what is true of the machine is true of the
system: a confirmed or a cancelled order has no move left
(`settledForGood`).
-/

namespace Saganova

open Concurrency

/-! ## The machine -/

/-- What the read models show of an order. -/
@[ext]
structure OrderView where
  order : Option OrderStatus
  reservation : Option ReservationStatus
  payment : Option PaymentStatus
  deriving DecidableEq, Repr

/-- A checkout's moves. -/
inductive CheckoutMove : OrderView → OrderView → Prop
  | create : CheckoutMove ⟨none, none, none⟩ ⟨some .created, none, none⟩
  | reserve : CheckoutMove ⟨some .created, none, none⟩ ⟨some .created, some .reserved, none⟩
  | outOfStock : CheckoutMove ⟨some .created, none, none⟩ ⟨some .created, some .failed, none⟩
  | authorize : CheckoutMove ⟨some .created, some .reserved, none⟩
      ⟨some .created, some .reserved, some .authorized⟩
  | decline : CheckoutMove ⟨some .created, some .reserved, none⟩
      ⟨some .created, some .reserved, some .declined⟩
  | confirm : CheckoutMove ⟨some .created, some .reserved, some .authorized⟩
      ⟨some .confirmed, some .reserved, some .authorized⟩
  /-- the stock stays reserved for an order whose payment was declined -/
  | cancelDeclined : CheckoutMove ⟨some .created, some .reserved, some .declined⟩
      ⟨some .cancelled, some .reserved, some .declined⟩
  | cancelUnreserved : CheckoutMove ⟨some .created, some .failed, none⟩
      ⟨some .cancelled, some .failed, none⟩

/-- Confirmed and cancelled orders are final. -/
theorem CheckoutMove.not_final {v v' : OrderView} (h : CheckoutMove v v') :
    v.order = none ∨ v.order = some .created := by
  cases h with
  | create => exact .inl rfl
  | _ => exact .inr rfl

/-- What the stages of a checkout have in common. -/
structure OrderView.Sound (v : OrderView) : Prop where
  order : v.order = none ∨ v.order = some .created ∨
    v.order = some .confirmed ∧ v.payment = some .authorized ∨
    v.order = some .cancelled ∧ (v.reservation = some .failed ∨ v.payment = some .declined)
  reservation : v.reservation = none ∨
    v.order ≠ none ∧ (v.reservation = some .reserved ∨ v.reservation = some .failed)
  payment : v.payment = none ∨
    v.reservation = some .reserved ∧ (v.payment = some .authorized ∨ v.payment = some .declined)

namespace OrderView.Sound

variable {v : OrderView}

/-- Only reserved stock is paid for. -/
theorem unpaid (h : v.Sound) (hreservation : v.reservation ≠ some .reserved) : v.payment = none :=
  h.payment.resolve_right fun hpaid => hreservation hpaid.1

/-- An order is open until its reservation has failed or its payment has an outcome. -/
theorem created (h : v.Sound) (horder : v.order ≠ none) (hreservation : v.reservation ≠ some .failed)
    (hpayment : v.payment = none) : v.order = some .created := by
  obtain hnone | hcreated | ⟨-, hauthorized⟩ | ⟨-, hfailed | hdeclined⟩ := h.order
  · exact absurd hnone horder
  · exact hcreated
  · cases hauthorized.symm.trans hpayment
  · exact absurd hfailed hreservation
  · cases hdeclined.symm.trans hpayment

/-- An order enters with nothing reserved and nothing paid. -/
theorem move_create (h : v.Sound) (hnone : v.order = none) :
    CheckoutMove v { v with order := some .created } := by
  have hreservation : v.reservation = none := h.reservation.resolve_right fun h => h.1 hnone
  have hpayment := h.unpaid (by simp [hreservation])
  obtain ⟨order, reservation, payment⟩ := v
  obtain ⟨rfl, rfl, rfl⟩ : order = none ∧ reservation = none ∧ payment = none :=
    ⟨hnone, hreservation, hpayment⟩
  exact .create

/-- It is confirmed when it is paid. -/
theorem move_confirm (hcreated : v.order = some .created)
    (h' : ({ v with order := some .confirmed } : OrderView).Sound) :
    CheckoutMove v { v with order := some .confirmed } := by
  have hpayment : v.payment = some .authorized := by simpa using h'.order
  have hreservation : v.reservation = some .reserved :=
    (h'.payment.resolve_left (by simp [hpayment])).1
  obtain ⟨order, reservation, payment⟩ := v
  obtain ⟨rfl, rfl, rfl⟩ : order = some .created ∧ reservation = some .reserved ∧
    payment = some .authorized := ⟨hcreated, hreservation, hpayment⟩
  exact .confirm

/-- It is cancelled when its stock was not reserved or its payment was declined. -/
theorem move_cancel (hcreated : v.order = some .created)
    (h' : ({ v with order := some .cancelled } : OrderView).Sound) :
    CheckoutMove v { v with order := some .cancelled } := by
  have hfailed : v.reservation = some .failed ∨ v.payment = some .declined := by
    simpa using h'.order
  obtain ⟨order, reservation, payment⟩ := v
  obtain rfl : order = some .created := hcreated
  obtain rfl | rfl : reservation = some .failed ∨ payment = some .declined := hfailed
  · obtain rfl : payment = none := h'.unpaid (by simp)
    exact .cancelUnreserved
  · obtain rfl : reservation = some .reserved := (h'.payment.resolve_left (by simp)).1
    exact .cancelDeclined

/-- The stock of an open order is reserved, or is not. -/
theorem move_reserve {st : ReservationStatus} (h : v.Sound) (hnone : v.reservation = none)
    (h' : ({ v with reservation := some st } : OrderView).Sound) :
    CheckoutMove v { v with reservation := some st } := by
  have hpayment := h.unpaid (by simp [hnone])
  obtain ⟨horder, hst⟩ := h'.reservation.resolve_left (by simp)
  have hcreated := h.created horder (by simp [hnone]) hpayment
  obtain ⟨order, reservation, payment⟩ := v
  obtain ⟨rfl, rfl, rfl⟩ : order = some .created ∧ reservation = none ∧ payment = none :=
    ⟨hcreated, hnone, hpayment⟩
  obtain hst | hst := hst
  · obtain rfl := Option.some.inj hst
    exact .reserve
  · obtain rfl := Option.some.inj hst
    exact .outOfStock

/-- The payment of an open order with its stock reserved is authorized or declined. -/
theorem move_charge {st : PaymentStatus} (h : v.Sound) (hnone : v.payment = none)
    (h' : ({ v with payment := some st } : OrderView).Sound) :
    CheckoutMove v { v with payment := some st } := by
  obtain ⟨hreservation, hst⟩ := h'.payment.resolve_left (by simp)
  replace hreservation : v.reservation = some .reserved := hreservation
  have horder := (h.reservation.resolve_left (by simp [hreservation])).1
  have hcreated := h.created horder (by simp [hreservation]) hnone
  obtain ⟨order, reservation, payment⟩ := v
  obtain ⟨rfl, rfl, rfl⟩ : order = some .created ∧ reservation = some .reserved ∧ payment = none :=
    ⟨hcreated, hreservation, hnone⟩
  obtain hst | hst := hst
  · obtain rfl := Option.some.inj hst
    exact .authorize
  · obtain rfl := Option.some.inj hst
    exact .decline

end OrderView.Sound

/-! ## The view of a database -/

namespace Service

/-- The status that a read model shows. -/
abbrev Status : Service → Type
  | .order => OrderStatus
  | .payment => PaymentStatus
  | .inventory => ReservationStatus

def rowStatus : (svc : Service) → ProjectionRow svc → svc.Status
  | .order, (row : OrderProjectionRow) => row.status
  | .payment, (row : PaymentProjectionRow) => row.status
  | .inventory, (row : ReservationProjectionRow) => row.status

def stateStatus : (svc : Service) → svc.AggregateState → svc.Status
  | .order, (state : OrderState) => state.status
  | .payment, (state : PaymentState) => state.status
  | .inventory, (state : StockAggregateState) => state.status

end Service

/-- The status of an aggregate in its read model. -/
def shown (svc : Service) (db : Db) (id : String) : Option svc.Status :=
  (Store.row db (.projection svc id)).map svc.rowStatus

def orderView (db : Db) (o : Uuid) : OrderView where
  order := shown .order db o
  reservation := shown .inventory db o
  payment := (Store.row db (.paymentOfOrder o)).bind (shown .payment db)

section View

variable {db db' : Db} {svc : Service} {id : String} {o p : Uuid}

theorem Projects.status {state : svc.AggregateState} {n : ℕ} {row : ProjectionRow svc}
    (h : Projects svc state n row) : svc.rowStatus row = svc.stateStatus state := by
  cases svc with
  | order => exact h.2.1
  | payment => exact h.2.1
  | inventory => exact h.1

/-- A read model shows the events replayed. -/
theorem shown_nil (hdb : Consistent db) (hrows : HasStream svc db id []) :
    shown svc db id = none := by
  unfold shown
  rw [(hdb.projected hrows).none_of_nil rfl]
  rfl

theorem shown_of_ne {rows : List (EventStoreRow svc)} (hdb : Consistent db)
    (hrows : HasStream svc db id rows) (hne : rows ≠ []) :
    shown svc db id = some (svc.stateStatus (replay svc rows)) := by
  obtain ⟨row, hrow, hproj⟩ := (hdb.projected hrows).some_of_ne hne
  unfold shown
  rw [hrow, ← hproj.status]
  rfl

/-- Read models of equal streams show the same. -/
theorem shown_congr (hdb : Consistent db) (hdb' : Consistent db')
    (h : ∀ rows, HasStream svc db' id rows ↔ HasStream svc db id rows) :
    shown svc db' id = shown svc db id := by
  obtain ⟨rows, hrows⟩ := hdb.stream svc id
  have hrows' := (h rows).mpr hrows
  by_cases hne : rows = []
  · subst hne
    rw [shown_nil hdb hrows, shown_nil hdb' hrows']
  · rw [shown_of_ne hdb hrows hne, shown_of_ne hdb' hrows' hne]

theorem payment_some (hdb : Consistent db) {st : PaymentStatus} :
    (orderView db o).payment = some st ↔ ∃ p, PaymentOf db o p ∧ shown .payment db p = some st := by
  unfold orderView
  simp only [Option.bind_eq_some_iff, paymentOf_iff hdb]

theorem PaymentOf.payment (hdb : Consistent db) (h : PaymentOf db o p) :
    (orderView db o).payment = shown .payment db p := by
  unfold orderView
  rw [(paymentOf_iff hdb).mp h]
  rfl

theorem payment_none (hdb : Consistent db) (h : ∀ p, ¬ PaymentOf db o p) :
    (orderView db o).payment = none := by
  rw [Option.eq_none_iff_forall_ne_some]
  intro st hst
  obtain ⟨p, hp, -⟩ := (payment_some hdb).mp hst
  exact h p hp

/-- Only the payments of an order count. -/
theorem payment_congr (hdb : Consistent db) (hdb' : Consistent db')
    (h : ∀ p rows, rows ≠ [] → (replay .payment rows).orderId = o →
      (HasStream .payment db' p rows ↔ HasStream .payment db p rows)) :
    (orderView db' o).payment = (orderView db o).payment := by
  have hsome : ∀ p, PaymentOf db' o p ↔ PaymentOf db o p := fun p =>
    ⟨fun ⟨rows, hrows, hne, ho⟩ => ⟨rows, (h p rows hne ho).mp hrows, hne, ho⟩,
      fun ⟨rows, hrows, hne, ho⟩ => ⟨rows, (h p rows hne ho).mpr hrows, hne, ho⟩⟩
  by_cases hp : ∃ p, PaymentOf db o p
  · obtain ⟨p, hp⟩ := hp
    obtain ⟨rows, hrows, hne, ho⟩ := hp
    rw [PaymentOf.payment hdb ⟨rows, hrows, hne, ho⟩,
      PaymentOf.payment hdb' ⟨rows, (h p rows hne ho).mpr hrows, hne, ho⟩,
      shown_of_ne hdb hrows hne, shown_of_ne hdb' ((h p rows hne ho).mpr hrows) hne]
  · have hno : ∀ p, ¬ PaymentOf db o p := fun p hpayment => hp ⟨p, hpayment⟩
    rw [payment_none hdb hno, payment_none hdb' fun p hpayment => hno p ((hsome p).mp hpayment)]

end View

/-! ## Every state is one of the machine's -/

section Sound

variable {s : Shared} {o p : Uuid}

theorem Reserved.shown {lines : List ReservationLine} (h : Reserved s o lines)
    (hI : CheckoutInv s) (hdb : Consistent s.db) :
    (orderView s.db o).reservation = some .reserved := by
  obtain ⟨reservationId, r, more, hrows, hevent⟩ := h
  refine (shown_of_ne hdb hrows (by simp)).trans ?_
  cases hI.streams _ _ _ hrows with
  | reserved _ _ _ =>
    rw [replay_one, hevent]
    rfl
  | reservationFailed _ hevent' => cases hevent.symm.trans hevent'

theorem ReservationFailed.shown (h : ReservationFailed s o) (hI : CheckoutInv s)
    (hdb : Consistent s.db) : (orderView s.db o).reservation = some .failed := by
  obtain ⟨sku, reason, r, more, hrows, hevent⟩ := h
  refine (shown_of_ne hdb hrows (by simp)).trans ?_
  cases hI.streams _ _ _ hrows with
  | reserved _ _ hevent' => cases hevent.symm.trans hevent'
  | reservationFailed _ _ =>
    rw [replay_one, hevent]
    rfl

theorem Authorized.shown {amountCents : Num} (h : Authorized s o p amountCents) (hI : CheckoutInv s)
    (hdb : Consistent s.db) : (orderView s.db o).payment = some .authorized := by
  rw [(h.paymentOf hI).payment hdb]
  obtain ⟨pspReference, r, more, hrows, hevent⟩ := h
  refine (shown_of_ne hdb hrows (by simp)).trans ?_
  cases hI.streams _ _ _ hrows with
  | authorized _ _ _ _ =>
    rw [replay_one, hevent]
    rfl
  | declined _ _ hevent' => cases hevent.symm.trans hevent'

theorem Declined.shown (h : Declined s o) (hI : CheckoutInv s) (hdb : Consistent s.db) :
    (orderView s.db o).payment = some .declined := by
  obtain ⟨p, ⟨rows, hrows, hdeclined, ho⟩, hpayment⟩ := h.declinedBy hI
  obtain ⟨rows', hrows', hne, -⟩ := id hpayment
  obtain rfl := hrows.unique hrows'
  rw [hpayment.payment hdb, shown_of_ne hdb hrows hne]
  exact congrArg some hdeclined

/-- An order whose stock was asked for has been created. -/
theorem Asked.shown (h : Asked s .reserveStock o) (hC : CreatedInv s) (hdb : Consistent s.db) :
    (orderView s.db o).order ≠ none := by
  obtain ⟨topic, c, hpublished, htype, ho⟩ := h
  obtain ⟨o', ho', rows, hrows, hne⟩ := (hC.commands topic c hpublished (by simp [htype])).created
  obtain rfl : o' = o := Option.some.inj (ho'.symm.trans ho)
  rw [show (orderView s.db o').order = _ from shown_of_ne hdb hrows hne]
  simp

theorem orderView_sound (hI : CheckoutInv s) (hC : CreatedInv s) (hdb : Consistent s.db)
    (o : Uuid) : (orderView s.db o).Sound := by
  constructor
  · obtain ⟨rows, hrows⟩ := hdb.stream .order o
    cases hI.streams _ _ _ hrows with
    | nil => exact .inl (shown_nil hdb hrows)
    | created _ hevent =>
      refine .inr (.inl ((shown_of_ne hdb hrows (by simp)).trans ?_))
      rw [replay_one, hevent]
      rfl
    | confirmed _ hevent _ hauthorized hevent' =>
      refine .inr (.inr (.inl ⟨(shown_of_ne hdb hrows (by simp)).trans ?_, hauthorized.shown hI hdb⟩))
      rw [replay_two, hevent, hevent']
      rfl
    | cancelled _ hevent hfailed hevent' =>
      refine .inr (.inr (.inr ⟨(shown_of_ne hdb hrows (by simp)).trans ?_,
        hfailed.imp (·.shown hI hdb) (·.shown hI hdb)⟩))
      rw [replay_two, hevent, hevent']
      rfl
  · obtain ⟨rows, hrows⟩ := hdb.stream .inventory o
    cases hI.streams _ _ _ hrows with
    | nil => exact .inl (shown_nil hdb hrows)
    | reserved _ hasked hevent =>
      have hfirst := hrows.first
      rw [hevent] at hfirst
      exact .inr ⟨hasked.shown hC hdb, .inl (Reserved.shown ⟨_, hfirst⟩ hI hdb)⟩
    | reservationFailed hasked hevent =>
      have hfirst := hrows.first
      rw [hevent] at hfirst
      exact .inr ⟨hasked.shown hC hdb, .inr (ReservationFailed.shown ⟨_, _, hfirst⟩ hI hdb)⟩
  · by_cases hp : ∃ p, PaymentOf s.db o p
    · obtain ⟨p, hp⟩ := hp
      obtain ⟨lines, hreserved⟩ := hp.reserved hI
      refine .inr ⟨hreserved.shown hI hdb, ?_⟩
      obtain ⟨rows, hrows, hne, ho⟩ := id hp
      cases hI.streams _ _ _ hrows with
      | nil => exact absurd rfl hne
      | authorized _ _ _ hevent =>
        have hfirst := hrows.first
        rw [replay_one, hevent] at ho
        rw [hevent] at hfirst
        obtain rfl := ho
        exact .inl (Authorized.shown ⟨_, hfirst⟩ hI hdb)
      | declined _ _ hevent =>
        have hfirst := hrows.first
        rw [replay_one, hevent] at ho
        rw [hevent] at hfirst
        obtain rfl := ho
        exact .inr (Declined.shown ⟨_, _, _, hfirst⟩ hI hdb)
    · exact .inl (payment_none hdb fun p hpayment => hp ⟨p, hpayment⟩)

end Sound

/-! ## Every step is one of the machine's -/

section Step

theorem snoc_eq_one {α : Type} {l : List α} {a b : α} (h : l ++ [a] = [b]) : l = [] ∧ a = b := by
  have hsplit : l ++ [a] = [] ++ [b] := h
  obtain ⟨hl, ha⟩ := List.append_inj' hsplit rfl
  exact ⟨hl, List.singleton_inj.mp ha⟩

theorem snoc_eq_two {α : Type} {l : List α} {a b c : α} (h : l ++ [a] = [b, c]) :
    l = [b] ∧ a = c := by
  have hsplit : l ++ [a] = [b] ++ [c] := h
  obtain ⟨hl, ha⟩ := List.append_inj' hsplit rfl
  exact ⟨hl, List.singleton_inj.mp ha⟩

variable {t : Task} {seen : Db} {s s' : Shared} {id : String}

/-- A step appends one event, or leaves every stream as it is. -/
theorem ServiceStep.append_cases (h : ServiceStep t seen s s') :
    (∀ svc id rows, HasStream svc s'.db id rows ↔ HasStream svc s.db id rows) ∨
    ∃ svc id rows r, Appended s s' svc id rows r := by
  obtain horder | ⟨id, rows, r, -, happ⟩ := h.stream_cases .order
  · obtain hpayment | ⟨id, rows, r, -, happ⟩ := h.stream_cases .payment
    · obtain hinventory | ⟨id, rows, r, -, happ⟩ := h.stream_cases .inventory
      · refine .inl fun svc => ?_
        cases svc with
        | order => exact horder
        | payment => exact hpayment
        | inventory => exact hinventory
      · exact .inr ⟨_, id, rows, r, happ⟩
    · exact .inr ⟨_, id, rows, r, happ⟩
  · exact .inr ⟨_, id, rows, r, happ⟩

/-- What an event of the order service shows. -/
theorem Appended.view_order {rows : List (EventStoreRow .order)} {r : EventStoreRow .order}
    (h : Appended s s' .order id rows r) (hdb : Consistent s.db) (hdb' : Consistent s'.db) :
    orderView s'.db id =
      { orderView s.db id with order := some (replay .order (rows ++ [r])).status } ∧
    ∀ o, o ≠ id → orderView s'.db o = orderView s.db o := by
  have hreservation : ∀ o, shown .inventory s'.db o = shown .inventory s.db o :=
    fun o => shown_congr hdb hdb' fun _ => h.others (by simp)
  have hpayment : ∀ o, (orderView s'.db o).payment = (orderView s.db o).payment :=
    fun o => payment_congr hdb hdb' fun _ _ _ _ => h.others (by simp)
  constructor
  · exact OrderView.ext (shown_of_ne hdb' h.after (by simp)) (hreservation id) (hpayment id)
  · exact fun o ho => OrderView.ext (shown_congr hdb hdb' fun _ => h.others (by simp [ho]))
      (hreservation o) (hpayment o)

/-- What an event of the inventory service shows. -/
theorem Appended.view_inventory {rows : List (EventStoreRow .inventory)}
    {r : EventStoreRow .inventory} (h : Appended s s' .inventory id rows r)
    (hdb : Consistent s.db) (hdb' : Consistent s'.db) :
    orderView s'.db id =
      { orderView s.db id with reservation := some (replay .inventory (rows ++ [r])).status } ∧
    ∀ o, o ≠ id → orderView s'.db o = orderView s.db o := by
  have horder : ∀ o, shown .order s'.db o = shown .order s.db o :=
    fun o => shown_congr hdb hdb' fun _ => h.others (by simp)
  have hpayment : ∀ o, (orderView s'.db o).payment = (orderView s.db o).payment :=
    fun o => payment_congr hdb hdb' fun _ _ _ _ => h.others (by simp)
  constructor
  · exact OrderView.ext (horder id) (shown_of_ne hdb' h.after (by simp)) (hpayment id)
  · exact fun o ho => OrderView.ext (horder o)
      (shown_congr hdb hdb' fun _ => h.others (by simp [ho])) (hpayment o)

/-- What the first event of a payment shows. -/
theorem Appended.view_payment {r : EventStoreRow .payment} {o : Uuid}
    (h : Appended s s' .payment id [] r) (ho : (replay .payment [r]).orderId = o)
    (hdb : Consistent s.db) (hdb' : Consistent s'.db) :
    orderView s'.db o = { orderView s.db o with payment := some (replay .payment [r]).status } ∧
    ∀ o', o' ≠ o → orderView s'.db o' = orderView s.db o' := by
  have horder : ∀ o, shown .order s'.db o = shown .order s.db o :=
    fun o => shown_congr hdb hdb' fun _ => h.others (by simp)
  have hreservation : ∀ o, shown .inventory s'.db o = shown .inventory s.db o :=
    fun o => shown_congr hdb hdb' fun _ => h.others (by simp)
  constructor
  · refine OrderView.ext (horder o) (hreservation o) ?_
    rw [PaymentOf.payment hdb' ⟨_, h.after, by simp, ho⟩]
    exact shown_of_ne hdb' h.after (by simp)
  · intro o' hne
    refine OrderView.ext (horder o') (hreservation o') ?_
    refine payment_congr hdb hdb' fun p rows hrows ho' => ?_
    by_cases hp : p = id
    · subst hp
      -- the new payment is of another order
      constructor
      · intro hafter
        obtain rfl := hafter.unique h.after
        exact absurd (ho'.symm.trans ho) hne
      · intro hbefore
        exact absurd (hbefore.unique h.before) hrows
    · exact h.others (by simp [hp])

/-- The first event of a payment moves its order. -/
theorem Appended.moves_payment {r : EventStoreRow .payment} (h : Appended s s' .payment id [] r)
    (hdb : Consistent s.db) (hdb' : Consistent s'.db) (hsound : ∀ o, (orderView s.db o).Sound)
    (hsound' : ∀ o, (orderView s'.db o).Sound) :
    OneMoves CheckoutMove (orderView s.db) (orderView s'.db) := by
  have hpayment' : PaymentOf s'.db (replay .payment [r]).orderId id := ⟨_, h.after, by simp, rfl⟩
  -- an order has one payment, and this one is new
  have hnone : (orderView s.db (replay .payment [r]).orderId).payment = none := by
    refine payment_none hdb fun p ⟨rows, hrows, hne, ho⟩ => ?_
    by_cases hp : p = id
    · subst hp
      exact hne (hrows.unique h.before)
    · exact hp (hpayment'.unique hdb' ⟨rows, (h.others (by simp [hp])).mpr hrows, hne, ho⟩)
  obtain ⟨hview, hothers⟩ := h.view_payment rfl hdb hdb'
  exact ⟨_, hview ▸ (hsound _).move_charge hnone (hview ▸ hsound' _), hothers⟩

/-- **Appending an event moves one order.** -/
theorem Appended.moves {svc : Service} {rows : List (EventStoreRow svc)} {r : EventStoreRow svc}
    (h : Appended s s' svc id rows r) (hI' : CheckoutInv s') (hdb : Consistent s.db)
    (hdb' : Consistent s'.db) (hsound : ∀ o, (orderView s.db o).Sound)
    (hsound' : ∀ o, (orderView s'.db o).Sound) :
    OneMoves CheckoutMove (orderView s.db) (orderView s'.db) := by
  have hrecorded := hI'.streams _ _ _ h.after
  generalize hall : rows ++ [r] = all at hrecorded
  cases hrecorded with
  | nil => simp at hall
  | @created _ _ _ r' _ hevent =>
    obtain ⟨rfl, rfl⟩ := snoc_eq_one hall
    obtain ⟨hview, hothers⟩ := h.view_order hdb hdb'
    rw [List.nil_append, replay_one, hevent] at hview
    exact ⟨id, hview ▸ (hsound id).move_create (shown_nil hdb h.before), hothers⟩
  | @confirmed _ _ _ _ _ _ r₀ r' _ hevent _ _ hevent' =>
    obtain ⟨rfl, rfl⟩ := snoc_eq_two hall
    obtain ⟨hview, hothers⟩ := h.view_order hdb hdb'
    have hcreated := shown_of_ne hdb h.before (by simp)
    rw [replay_one, hevent] at hcreated
    rw [List.singleton_append, replay_two, hevent, hevent'] at hview
    exact ⟨id, hview ▸ OrderView.Sound.move_confirm hcreated (hview ▸ hsound' id), hothers⟩
  | @cancelled _ _ _ _ r₀ r' _ hevent _ hevent' =>
    obtain ⟨rfl, rfl⟩ := snoc_eq_two hall
    obtain ⟨hview, hothers⟩ := h.view_order hdb hdb'
    have hcreated := shown_of_ne hdb h.before (by simp)
    rw [replay_one, hevent] at hcreated
    rw [List.singleton_append, replay_two, hevent, hevent'] at hview
    exact ⟨id, hview ▸ OrderView.Sound.move_cancel hcreated (hview ▸ hsound' id), hothers⟩
  | @reserved _ _ _ _ r' _ _ _ =>
    obtain ⟨rfl, rfl⟩ := snoc_eq_one hall
    obtain ⟨hview, hothers⟩ := h.view_inventory hdb hdb'
    exact ⟨id, hview ▸ (hsound id).move_reserve (shown_nil hdb h.before) (hview ▸ hsound' id),
      hothers⟩
  | @reservationFailed _ _ _ r' _ _ =>
    obtain ⟨rfl, rfl⟩ := snoc_eq_one hall
    obtain ⟨hview, hothers⟩ := h.view_inventory hdb hdb'
    exact ⟨id, hview ▸ (hsound id).move_reserve (shown_nil hdb h.before) (hview ▸ hsound' id),
      hothers⟩
  | @authorized _ _ _ _ _ _ r' _ _ _ _ =>
    obtain ⟨rfl, rfl⟩ := snoc_eq_one hall
    exact h.moves_payment hdb hdb' hsound hsound'
  | @declined _ _ _ _ _ r' _ _ _ =>
    obtain ⟨rfl, rfl⟩ := snoc_eq_one hall
    exact h.moves_payment hdb hdb' hsound hsound'

/-- **A handler's step is a move, or shows nothing.** -/
theorem ServiceStep.moves (h : ServiceStep t seen s s') (hI' : CheckoutInv s')
    (hdb : Consistent s.db) (hsound : ∀ o, (orderView s.db o).Sound)
    (hsound' : ∀ o, (orderView s'.db o).Sound) :
    orderView s'.db = orderView s.db ∨ OneMoves CheckoutMove (orderView s.db) (orderView s'.db) := by
  have hdb' := h.consistent hdb
  obtain hsame | ⟨svc, id, rows, r, happ⟩ := h.append_cases
  · refine .inl (funext fun o => OrderView.ext ?_ ?_ ?_)
    · exact shown_congr hdb hdb' fun _ => hsame _ _ _
    · exact shown_congr hdb hdb' fun _ => hsame _ _ _
    · exact payment_congr hdb hdb' fun _ _ _ _ => hsame _ _ _
  · exact .inr (happ.moves hI' hdb hdb' hsound hsound')

end Step

/-- No order is known yet. -/
theorem OnlyStocked.orderView {db : Db} (h : OnlyStocked db) :
    orderView db = fun _ => ⟨none, none, none⟩ := by
  have hdb := h.fresh.consistent
  funext o
  refine OrderView.ext (shown_nil hdb (h.fresh.hasStream _ o)) (shown_nil hdb (h.fresh.hasStream _ o))
    (payment_none hdb fun p ⟨rows, hrows, hne, _⟩ => hne (h.fresh.stream_nil hrows))

theorem simulates_checkout : checkoutSystem.Simulates anything (fun s => orderView s.db)
    (fun _ => ⟨none, none, none⟩) (OneMoves CheckoutMove) := by
  refine Protocol.simulates checkoutSystem_keeps (I := fun s => CheckoutInv s ∧ CreatedInv s)
    (fun s hs => ⟨checkoutInv_of_reach rfl (fun _ _ ht => ht) (fun _ hs => hs) hs,
      createdInv_of_reach rfl (fun _ _ ht => ht) (fun _ hs => hs) hs⟩)
    (fun s hs => hs.1.orderView) fun t seen s s' hdb ⟨hI, hC⟩ ⟨hI', hC'⟩ hstep => ?_
  exact ServiceStep.moves hstep hI' hdb (orderView_sound hI hC hdb)
    (orderView_sound hI' hC' (ServiceStep.consistent hstep hdb))

/-- **The composed system refines the machine**: whatever is lost, late,
repeated or interleaved, every order has come to its view by the machine's
moves, and the next step of the system moves one order by one of them, or shows
nothing. -/
theorem checkoutRefines (s s' : LockState) (i : ℕ) (c : Option (Choice Row Err Act.Reply Task))
    (h : LockReach checkoutSystem anything s) (hstep : LockStep checkoutSystem s i c s') :
    (∀ o, Relation.ReflTransGen CheckoutMove ⟨none, none, none⟩ (orderView s.base.shared.db o)) ∧
    (orderView s'.base.shared.db = orderView s.base.shared.db ∨
      OneMoves CheckoutMove (orderView s.base.shared.db) (orderView s'.base.shared.db)) :=
  ⟨OneMoves.path (simulates_checkout.reach h),
    simulates_checkout.step s s' i c h hstep fun _ _ => trivial⟩

/-- After the sale, a request comes in. -/
def soldAndIdle : LockState := ⟨.idle sold, fun _ => none⟩

def soldAndAsked : LockState :=
  ⟨soldAndIdle.base.set 0
      (some ⟨.createOrder customer₂ [] "d", [], code (.createOrder customer₂ [] "d")⟩),
    soldAndIdle.txns⟩

theorem step_soldAndIdle : LockStep checkoutSystem soldAndIdle 0
    (some (.spawn (.createOrder customer₂ [] "d"))) soldAndAsked :=
  .outside (.spawn rfl trivial) trivial

theorem checkoutRefines_sale :
    orderView soldAndIdle.base.shared.db (uuidOf 0) =
      ⟨some .confirmed, some .reserved, some .authorized⟩ ∧
    Relation.ReflTransGen CheckoutMove ⟨none, none, none⟩
      (orderView soldAndIdle.base.shared.db (uuidOf 0)) :=
  ⟨by decide +kernel, (checkoutRefines soldAndIdle soldAndAsked 0 _ reach_sale.withLocks
    step_soldAndIdle).1 (uuidOf 0)⟩

/-- **How a checkout ended is for good**: in every continuation of the run, the
read models show the same order, reservation and payment. -/
theorem settledForGood (s s' : LockState) (h : LockReach checkoutSystem anything s)
    (hlater : LockLater checkoutSystem anything s s') (o : Uuid)
    (hended : (orderView s.base.shared.db o).order = some .confirmed ∨
      (orderView s.base.shared.db o).order = some .cancelled) :
    orderView s'.base.shared.db o = orderView s.base.shared.db o := by
  refine eq_of_final (fun v hmove => ?_) (OneMoves.path (simulates_checkout.later h hlater) o)
  obtain hnone | hcreated := hmove.not_final
  · obtain hended | hended := hended
    · cases hended.symm.trans hnone
    · cases hended.symm.trans hnone
  · obtain hended | hended := hended
    · cases hended.symm.trans hcreated
    · cases hended.symm.trans hcreated

theorem settledForGood_sale :
    orderView soldAndAsked.base.shared.db (uuidOf 0) = orderView soldAndIdle.base.shared.db (uuidOf 0) :=
  settledForGood soldAndIdle soldAndAsked reach_sale.withLocks
    (.single ⟨0, _, step_soldAndIdle, fun _ _ => trivial⟩) (uuidOf 0) (.inl (by decide +kernel))

end Saganova
