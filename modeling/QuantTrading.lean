import QuantTrading.Tracker.CashFloor
import QuantTrading.Tracker.AuditTrail
import QuantTrading.Tracker.Valuation
import QuantTrading.Live.PaperSimulation
import QuantTrading.Engine.FinalClose
import QuantTrading.Engine.SignalTargets
import QuantTrading.Engine.Cancellation
import QuantTrading.Cache.Coherence
import QuantTrading.Engine.SharedCache
import QuantTrading.Engine.IntradayWarmup
import QuantTrading.Strategy.SliceAdapter
import QuantTrading.Expression.RoundTrip
import QuantTrading.Expression.Windows
import QuantTrading.Indicator
import QuantTrading.Expression.Lookback
import QuantTrading.Expression.PointInTime
import QuantTrading.Live.MarginBooks
import QuantTrading.Live.ShortQuota
import QuantTrading.Live.OrderRaces
import QuantTrading.Live.SignalTranslation
import QuantTrading.Live.PriceCage
import QuantTrading.Metrics
import QuantTrading.Live.Reconciliation
import QuantTrading.Sync.Retries
import QuantTrading.Sync.Dequeue
import QuantTrading.Sync.Scheduler
import QuantTrading.JobService
import QuantTrading.DualRun.Gate
import QuantTrading.DualRun.Replay
import QuantTrading.Marketdata.BackpressureBus
import QuantTrading.Kernel
import QuantTrading.Eventstore
import QuantTrading.Live.FlattenAudit
import QuantTrading.LimitOrders
import QuantTrading.Tracker.AverageCost
import QuantTrading.Tracker.DailyCap
import QuantTrading.ExecAlgo.Protocol
import QuantTrading.ExecAlgo.Rendering
import QuantTrading.FactorGovernance
import QuantTrading.FirstAdmin
import QuantTrading.RiskLevels
import QuantTrading.TakeProfit
