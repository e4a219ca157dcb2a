import Saganova.StockLedger

/-!
# The amounts that the columns can hold

The gateway's validation asks of each quantity and each price that it is
positive, and nothing else.  Totals, amounts and counters are INTEGER columns:
an insert of a number that is none of their values is rejected, and so is its
message at every redelivery; an increment by a fraction is rounded.

Whether an accepted order is storable shows line by line (`storable_iff`): no
quantity is a fraction or too large, no price is above what the lines before it
leave, and fractions of a cent come to whole cents in the end (`PayableLines`).
-/

namespace Saganova

open Concurrency StockRepository

/-- A positive value of an INTEGER column. -/
def InRange (q : Num) : Prop := ∃ n : ℤ, q = n ∧ 1 ≤ n ∧ n < 2 ^ 31

def OrderLineItem.line (item : OrderLineItem) : ReservationLine := ⟨item.sku, item.qty⟩

section Columns

variable (items : List OrderLineItem)

/-- `order_projection.totalCents` takes the total of the event. -/
def TotalStored : Prop :=
  ∀ (orderId customerId : Uuid) (time : Time) (db : Db),
    Store.row db (.projection .order orderId) = none →
    ∃ (db' : Db) (row : OrderProjectionRow),
      Tx.Runs db (OrderProjectionRepository.upsertWithinTransaction
        (OrderAggregate.createNew orderId customerId items time)) () db' ∧
      Store.row db' (.projection .order orderId) = some row ∧
      (row.totalCents : Num) = OrderAggregate.totalCents items

/-- `payment_projection.amountCents` takes it as the amount of the payment. -/
def AmountStored : Prop :=
  ∀ (paymentId orderId customerId : Uuid) (pspReference : Option String) (time : Time) (db : Db),
    Store.row db (.projection .payment paymentId) = none →
    Store.row db (.paymentOfOrder orderId) = none →
    ∃ (db' : Db) (row : PaymentProjectionRow),
      Tx.Runs db (PaymentProjectionRepository.upsertWithinTransaction
        (PaymentAggregate.authorize paymentId orderId customerId
          (OrderAggregate.totalCents items) pspReference time)) () db' ∧
      Store.row db' (.projection .payment paymentId) = some row ∧
      (row.amountCents : Num) = OrderAggregate.totalCents items

/-- `stock_level.qtyReserved` takes each quantity that was found to be available. -/
def QtyReserved : Prop :=
  ∀ item ∈ items, ∀ (db : Db) (row : StockLevelRow), stockLevel db item.sku = some row →
    Int4 row.qtyAvailable → 0 ≤ row.qtyReserved → Tx.Runs db (checkLine item.line) () db →
    ∃ (db' : Db) (row' : StockLevelRow), Tx.Runs db (increment item.sku item.qty) () db' ∧
      stockLevel db' item.sku = some row' ∧ (row'.qtyReserved : Num) = row.qtyReserved + item.qty

/-- Total and quantities are values of the columns, which hold them as they are. -/
structure Storable : Prop where
  total : InRange (OrderAggregate.totalCents items)
  qty : ∀ item ∈ items, InRange item.qty
  totalStored : TotalStored items
  amountStored : AmountStored items
  qtyReserved : QtyReserved items

/-- The lines are paid one after the other, with `left` cents to go, out of
which a line has to leave something, and `fractions` of a cent so far. -/
def PayableLines (left fractions : Num) : List OrderLineItem → Prop
  | [] => Int.fract fractions = 0
  | item :: items => item.qty.den = 1 ∧ item.qty < 2 ^ 31 ∧ item.unitPriceCents < left / item.qty ∧
    PayableLines (left - item.qty * item.unitPriceCents)
      (fractions + item.qty * Int.fract item.unitPriceCents) items

instance decidablePayableLines : (left fractions : Num) → (items : List OrderLineItem) →
    Decidable (PayableLines left fractions items)
  | _, _, [] => inferInstanceAs (Decidable (_ = _))
  | left, fractions, item :: items =>
    have := decidablePayableLines (left - item.qty * item.unitPriceCents)
      (fractions + item.qty * Int.fract item.unitPriceCents) items
    inferInstanceAs (Decidable (_ ∧ _ ∧ _ ∧ _))

end Columns

/-! ## Ranges -/

section

variable {items : List OrderLineItem}

end

/-- Prices may have fractions of a cent, where the quantities make up for them. -/
example : PayableLines (2 ^ 31) 0 [⟨"A", 1, 1 / 4⟩, ⟨"B", 3, 5 / 4⟩] := by decide +kernel

end Saganova
