import Saganova.Contracts

/-!
# Statuses and errors

The status enumerations of the three aggregates, and every error that a
handler can throw.
-/

namespace Saganova

inductive OrderStatus where
  | uninitialized
  | created
  | confirmed
  | cancelled
  deriving DecidableEq, Repr

inductive PaymentStatus where
  | uninitialized
  | authorized
  | declined
  | refunded
  deriving DecidableEq, Repr

inductive ReservationStatus where
  | uninitialized
  | reserved
  | failed
  | released
  deriving DecidableEq, Repr

/-- What a handler can throw. -/
inductive Err where
  /-- a `QueryFailedError` with code 23505 -/
  | uniqueViolation
  /-- any other failing statement, or a failing commit -/
  | queryFailed (message : String)
  | concurrencyError (aggregateId : String) (expectedVersion : ℕ)
  | orderAlreadyFinalized (orderId : Uuid) (currentStatus : OrderStatus)
  | paymentAlreadyFinalized (paymentId : Uuid) (currentStatus : PaymentStatus)
  | reservationAlreadyFinalized (orderId : Uuid) (currentStatus : ReservationStatus)
  | insufficientStock (sku : String) (reason : String)
  /-- Nest's `NotFoundException` -/
  | notFound (message : String)
  /-- a plain `Error` -/
  | error (message : String)
  /-- reading a field of something undefined -/
  | typeError (message : String)
  /-- the payment gateway's client failed -/
  | gateway (message : String)
  /-- the Kafka client failed -/
  | kafka (message : String)
  deriving DecidableEq, Repr

end Saganova
