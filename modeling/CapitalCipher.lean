import CapitalCipher.Agents.Equivalence
import CapitalCipher.Agents.Evaluation
import CapitalCipher.Agents.InMemory
import CapitalCipher.Agents.Lifecycle
import CapitalCipher.Agents.Quant
import CapitalCipher.Agents.Rebuild
import CapitalCipher.Agents.Refinement
import CapitalCipher.Agents.Runtime
import CapitalCipher.Agents.Settlement
import CapitalCipher.Agents.Stored
import CapitalCipher.Backtesting.Acceptance
import CapitalCipher.Backtesting.WalkForward
import CapitalCipher.Core.EventBus
import CapitalCipher.Core.Process
import CapitalCipher.Core.StateMachine
import CapitalCipher.Database.Acceptance
import CapitalCipher.Database.Agents
import CapitalCipher.Database.Backfill
import CapitalCipher.Database.Effects
import CapitalCipher.Database.Evaluation
import CapitalCipher.Database.Events
import CapitalCipher.Database.Market
import CapitalCipher.Database.Models
import CapitalCipher.Database.Repository
import CapitalCipher.Lib.AppendOnly
import CapitalCipher.Lib.Bisection
import CapitalCipher.Lib.CappedShares
import CapitalCipher.Lib.Coroutine
import CapitalCipher.Lib.Drawdown
import CapitalCipher.Lib.Mutex
import CapitalCipher.Lib.OrderedDict
import CapitalCipher.Lib.Quantile
import CapitalCipher.Lib.Sequential
import CapitalCipher.Lib.SignTest
import CapitalCipher.Lib.SortedLog
import CapitalCipher.Lib.StepFunction
import CapitalCipher.Lib.Table
import CapitalCipher.Lib.Transaction
import CapitalCipher.MarketData.Backfill
import CapitalCipher.MarketData.Clock
import CapitalCipher.MarketData.Detection
import CapitalCipher.MarketData.Pagination
import CapitalCipher.MarketData.Replay
import CapitalCipher.Oms.Comparison
import CapitalCipher.Oms.Service
import CapitalCipher.Operations.Alerts
import CapitalCipher.Operations.Resilience
import CapitalCipher.Orchestrator.Drift
import CapitalCipher.Orchestrator.Experiments
import CapitalCipher.Paper.Account
import CapitalCipher.Paper.Adverse
import CapitalCipher.Paper.Engine
import CapitalCipher.Paper.Execution
import CapitalCipher.Paper.Exits
import CapitalCipher.Paper.Funding
import CapitalCipher.Paper.Performance
import CapitalCipher.Risk.Manager
import CapitalCipher.Risk.Portfolio
import CapitalCipher.Risk.Sizing
import CapitalCipher.Risk.ValueAtRisk
import CapitalCipher.Schemas.Agents
import CapitalCipher.Schemas.Evaluation
import CapitalCipher.Schemas.Events
import CapitalCipher.Schemas.Market
import CapitalCipher.Schemas.Oms
import CapitalCipher.Schemas.PortfolioConsensus
import CapitalCipher.Schemas.Risk
import CapitalCipher.System.Approvals
import CapitalCipher.System.BackfillQueue
import CapitalCipher.System.Conservation
import CapitalCipher.System.Dispatch
import CapitalCipher.System.EventDelivery
import CapitalCipher.System.Exposure
import CapitalCipher.System.Fills
import CapitalCipher.System.Flight
import CapitalCipher.System.GapTracking
import CapitalCipher.System.Landing
import CapitalCipher.System.Ledger
import CapitalCipher.System.LocalAccount
import CapitalCipher.System.Revocation
import CapitalCipher.System.Steps
import CapitalCipher.System.Trades
import CapitalCipher.System.Workers
import CapitalCipher.Lib.BoundedQueue
import CapitalCipher.Lib.Interference
import CapitalCipher.Operations.Costs
import CapitalCipher.Operations.Metrics
import CapitalCipher.Operations.SuccessRates
import CapitalCipher.Orchestrator.Weights
import CapitalCipher.Paper.Retry
import CapitalCipher.System.KillSwitch
import CapitalCipher.Agents.AdvancedSpecialists
import CapitalCipher.Agents.ShadowCohort
import CapitalCipher.System.BinanceTestnet
import CapitalCipher.System.Cancellation
import CapitalCipher.Orchestrator.Construction
import CapitalCipher.Lib.Dialogue
import CapitalCipher.Lib.Records
import CapitalCipher.Lib.RowLocks
import CapitalCipher.MarketData.Quality
import CapitalCipher.Orchestrator.Consensus
import CapitalCipher.Orchestrator.Cycle
import CapitalCipher.Orchestrator.Discipline
import CapitalCipher.System.Cycles
import CapitalCipher.System.Locking
