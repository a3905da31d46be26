import StockQuant.AttemptLoop
import StockQuant.LotQueue
import StockQuant.Text
import StockQuant.Num
import StockQuant.Json
import StockQuant.Clock
import StockQuant.OrderModels
import StockQuant.RiskRules
import StockQuant.KisContract
import StockQuant.KisParsers
import StockQuant.KisClient
import StockQuant.KisOrders
import StockQuant.KisPaperBroker
import StockQuant.OrderStore
import StockQuant.OrderEngine
import StockQuant.OrderSync
import StockQuant.PerformanceMath
import StockQuant.ReplayLedger
import StockQuant.EquityTracker
import StockQuant.LiveAutoState
import StockQuant.LiveExitRules
import StockQuant.LiveCandidateScoring
import StockQuant.LiveAutoGuarded
import StockQuant.LiveAutoGate
import StockQuant.Frame
import StockQuant.Strategy
import StockQuant.Indicators
import StockQuant.MarketRegime
import StockQuant.Filters
import StockQuant.Ranking
import StockQuant.SymbolScan
import StockQuant.RegimeStrategies
import StockQuant.SwingStrategy
import StockQuant.SwingTakeProfit
import StockQuant.SwingRelaxedV2State
import StockQuant.SwingRelaxedV2
import StockQuant.HoldingsWatched
import StockQuant.Machine
import StockQuant.AgedRows
import StockQuant.Brokers
import StockQuant.DailyCycle
import StockQuant.PositionHistory
import StockQuant.IntradaySession
import StockQuant.IntradayState
import StockQuant.IntradayIndicators
import StockQuant.ScalpStrategy
import StockQuant.ScalpMomentum
import StockQuant.ScalpMacd
import StockQuant.MinuteBars
import StockQuant.StrategyRouter
import StockQuant.IntradayCycle
import StockQuant.MultiStrategyTick
import StockQuant.MarketMode
import StockQuant.FinalBettingBars
import StockQuant.FinalBetting
import StockQuant.FinalBettingExits
import StockQuant.FinalBettingEntries
import StockQuant.FinalBettingV1
import StockQuant.LiveTickSteps
import StockQuant.LiveRun
import StockQuant.TrailingStop
import StockQuant.LiveBroker
import StockQuant.AcceptedOrders
import StockQuant.LossCooldown
import StockQuant.LiveValuation
import StockQuant.LiveEquity
import StockQuant.KstDays
import StockQuant.LossBaseline
import StockQuant.PendingExposure
import StockQuant.SharedCell
import StockQuant.LiveClients
import StockQuant.StopRequest
import StockQuant.StateFile
import StockQuant.Throttle
import StockQuant.TickThrottle
import StockQuant.LiveLoop
import StockQuant.CandidateRequests
import StockQuant.LiveDesk
import StockQuant.SellOnlyLoop
import StockQuant.CarryRecords
import StockQuant.OrderRetention
import StockQuant.FillReplay
import StockQuant.BuyApproval
import StockQuant.RegimeEnforcement
import StockQuant.OrderCleanup
import StockQuant.OrderWrites
import StockQuant.SharedStore
import StockQuant.OrderInterleaving
import StockQuant.StaleCleanup
import StockQuant.KeyedLog
import StockQuant.PortfolioSync
import StockQuant.SellOnlyRuns
import StockQuant.LiquidationPlans
import StockQuant.LiquidationRuns
import StockQuant.ManualApproval
import StockQuant.Unwinding
import StockQuant.UserIsolation
import StockQuant.PositionSizing
import StockQuant.RiskSwitch
import StockQuant.FirstReadings
import StockQuant.EquityRuns
import StockQuant.RuntimeEngine
import StockQuant.RuntimeLatch
import StockQuant.RuntimeRestart
import StockQuant.Fallible
import StockQuant.PyValue
import StockQuant.LiveUnlockGate
import StockQuant.PaperReadiness
import StockQuant.PaperAccount
import StockQuant.OrdersInFlight
import StockQuant.ReservedCash
import StockQuant.Streaks
import StockQuant.PaperController
import StockQuant.PaperSession
import StockQuant.PaperThreads
import StockQuant.PaperResume
import StockQuant.PaperHub
import StockQuant.PaperStateFile
import StockQuant.Backtest
import StockQuant.FirstMax
import StockQuant.WalkForward
import StockQuant.OvernightDeadline
import StockQuant.FinalBettingJobs
import StockQuant.CarryHoldings
import StockQuant.ShadowRuns
import StockQuant.ScalpRsiFlag
import StockQuant.ScalpDay
import StockQuant.DayLimits
import StockQuant.WorseAccounts
import StockQuant.NotionalCaps
import StockQuant.CandidateRetention
import StockQuant.StricterModes
import StockQuant.RewrittenFile
import StockQuant.UserAuth
import StockQuant.RefreshTokens
import StockQuant.Registrations
import StockQuant.BrokerSecrets
import StockQuant.UsSession
import StockQuant.UsScalpTick
import StockQuant.UsSessionFollowed
import StockQuant.SignalEngine
import StockQuant.SwingPlan
import StockQuant.SwingPlanKept
import StockQuant.DynamicSizing
import StockQuant.LossDays
import StockQuant.Drawdown
import StockQuant.MaxDrawdown
import StockQuant.KeyedFold
import StockQuant.ReplaySymbols
import StockQuant.StrategyCredit
import StockQuant.PositionRecord
import StockQuant.FillReports
import StockQuant.OpenOrderRows
import StockQuant.TokenRecovery
import StockQuant.DuplicateGuard
import StockQuant.IsoTime
import StockQuant.DateFilters
import StockQuant.LivePerformanceScoring
import StockQuant.Resampling
import StockQuant.Months
import StockQuant.WalkForwardWindows
import StockQuant.MorningCutoff
import StockQuant.ScalpMomentumV2
import StockQuant.TrailingRuns
import StockQuant.OvernightLimits
import StockQuant.KisIntraday
import StockQuant.MinutePaging
import StockQuant.ScalpMomentumV3
import StockQuant.ExitBookkeeping
import StockQuant.DateOrder
import StockQuant.RestDays
import StockQuant.FilterExplanation
import StockQuant.KisUsPaperBroker
import StockQuant.UsPaperUniverse
import StockQuant.TradeValueSpike
import StockQuant.SizeReduction
import StockQuant.BetterResults
import StockQuant.Compounding
import StockQuant.MonthlyReturns
import StockQuant.SignalSuppression
import StockQuant.LiveBar
import StockQuant.Screener
import StockQuant.RegimeShape
import StockQuant.StandInIndex
import StockQuant.RiskSizedQuantity
import StockQuant.OrderSplitting
import StockQuant.AutoGuardedTick
import StockQuant.LiveSafety
import StockQuant.BoughtOnce
import StockQuant.ClientSession
import StockQuant.JsonQuotes
import StockQuant.JsonLogs
