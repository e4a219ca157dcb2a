import Saganova.OrchestratorOutcomes
import Saganova.PaymentCharges
import Saganova.PaymentRefunds
import Saganova.StockBounds
import Saganova.StockDeadlocks
import Saganova.SagaCompensation
import Saganova.SagaFailures
import Saganova.OrchestratorCommands
import Saganova.CheckoutProgress
import Saganova.CorrelationIds
import Saganova.OutboxOrder
import Saganova.Snapshots
import Saganova.SaveRetries
import Saganova.AppendRaces
import Saganova.Notifications
import Saganova.AuditLog
import Saganova.SagaForward
import Saganova.OutboxStarvation
import Saganova.PoisonMessages
import Saganova.RefundAmounts
import Saganova.OrderTotals
import Saganova.Reservations
import Saganova.CheckoutCharges
import Saganova.CheckoutMachine
import Saganova.OutOfStock
import Saganova.AuditStories
