import StockQuant.Num
import StockQuant.OrderModels

namespace StockQuant.RiskRules

open StockQuant Clock OrderModels

inductive MarketRegime
  | bullishTrend
  | bearishTrend
  | sideways
  | highVolatilityRisk
  deriving DecidableEq, Repr

structure RiskSnapshot where
  dailyPnlPct : ℚ
  totalPnlPct : ℚ
  equity : ℚ
  marketFilterOk : Bool
  positionValues : List (String × ℚ)
  marketRegime : MarketRegime := .sideways
  recentTradePnls : List ℚ := []
  consecutiveLosses : Int := 0
  latestEntryScore : Option ℚ := none
  todaysNewEntries : Int := 0
  tradingCooldownUntil : Option Instant := none
  cooldownUntil : List (String × Instant) := []
  equityDataOk : Bool := true

structure RiskLimits where
  minPositionWeight : ℚ := 10 / 100
  maxPositionWeight : ℚ := 15 / 100
  maxPositions : Int := 5
  dailyLossLimitPct : ℚ := 3
  totalLossLimitPct : ℚ := 10
  reentryCooldownMinutes : Int := 60
  bearishMaxPositions : Int := 2
  bearishMaxPositionWeight : ℚ := 8 / 100
  bearishMinPositionWeight : ℚ := 3 / 100
  bearishMaxStopLossPct : ℚ := 25 / 10
  bearishMaxNewEntriesPerDay : Int := 1
  highVolNewEntryBlocked : Bool := true
  rollingLossWindowTrades : Int := 10
  rollingLossLimitPct : ℚ := 4
  adaptiveLossStreakThreshold : Int := 3
  adaptiveNewEntriesLimit : Int := 1
  adaptivePositionWeightMultiplier : ℚ := 7 / 10
  adaptiveStopLossTightenMultiplier : ℚ := 8 / 10
  adaptivePerformanceFloorPct : ℚ := -1
  adaptiveMinEntryScore : ℚ := 65 / 100
  adaptiveEnableEntryFilter : Bool := true
  maxSingleOrderNotionalPct : ℚ := 25
  allowedSymbols : List String := []

inductive RiskReasonCode
  | ok
  | okSell
  | okBuy
  | okWeight
  | okRegimeBearishBuyConservative
  | tradingCooldownActive
  | systemOffTotalLoss
  | haltDailyLoss
  | haltRollingLossLimit
  | tradingCooldownRequiredAdaptive
  | adaptiveNewEntryLimit
  | adaptiveEntryFilterBlock
  | blockRegimeHighVolatilityNewEntry
  | blockRegimeBearishNewEntryLimit
  | blockBadMarketFilter
  | missingStopLoss
  | blockRegimeBearishStopLossTooWide
  | reentryCooldown
  | invalidOrderPrice
  | invalidEquity
  | maxPositionsExceeded
  | blockRegimeBearishMaxPositions
  | positionWeightTooHigh
  | blockRegimeBearishPositionWeight
  | positionWeightTooLow
  | orderQuantityInvalid
  | orderNotionalExceedsCap
  | symbolNotAllowed
  deriving DecidableEq, Repr

def RiskReasonCode.value : RiskReasonCode → String
  | .ok => "OK"
  | .okSell => "OK_SELL"
  | .okBuy => "OK_BUY"
  | .okWeight => "OK_WEIGHT"
  | .okRegimeBearishBuyConservative => "OK_REGIME_BEARISH_BUY_CONSERVATIVE"
  | .tradingCooldownActive => "TRADING_COOLDOWN_ACTIVE"
  | .systemOffTotalLoss => "SYSTEM_OFF_TOTAL_LOSS"
  | .haltDailyLoss => "HALT_DAILY_LOSS"
  | .haltRollingLossLimit => "HALT_ROLLING_LOSS_LIMIT"
  | .tradingCooldownRequiredAdaptive => "TRADING_COOLDOWN_REQUIRED_ADAPTIVE"
  | .adaptiveNewEntryLimit => "ADAPTIVE_NEW_ENTRY_LIMIT"
  | .adaptiveEntryFilterBlock => "ADAPTIVE_ENTRY_FILTER_BLOCK"
  | .blockRegimeHighVolatilityNewEntry => "BLOCK_REGIME_HIGH_VOLATILITY_NEW_ENTRY"
  | .blockRegimeBearishNewEntryLimit => "BLOCK_REGIME_BEARISH_NEW_ENTRY_LIMIT"
  | .blockBadMarketFilter => "BLOCK_BAD_MARKET_FILTER"
  | .missingStopLoss => "MISSING_STOP_LOSS"
  | .blockRegimeBearishStopLossTooWide => "BLOCK_REGIME_BEARISH_STOP_LOSS_TOO_WIDE"
  | .reentryCooldown => "REENTRY_COOLDOWN"
  | .invalidOrderPrice => "INVALID_ORDER_PRICE"
  | .invalidEquity => "INVALID_EQUITY"
  | .maxPositionsExceeded => "MAX_POSITIONS_EXCEEDED"
  | .blockRegimeBearishMaxPositions => "BLOCK_REGIME_BEARISH_MAX_POSITIONS"
  | .positionWeightTooHigh => "POSITION_WEIGHT_TOO_HIGH"
  | .blockRegimeBearishPositionWeight => "BLOCK_REGIME_BEARISH_POSITION_WEIGHT"
  | .positionWeightTooLow => "POSITION_WEIGHT_TOO_LOW"
  | .orderQuantityInvalid => "ORDER_QUANTITY_INVALID"
  | .orderNotionalExceedsCap => "ORDER_NOTIONAL_EXCEEDS_CAP"
  | .symbolNotAllowed => "SYMBOL_NOT_ALLOWED"

structure RiskDecision where
  approved : Bool
  reasonCode : RiskReasonCode
  reason : String
  isHardStop : Bool := false
  deriving DecidableEq, Repr

structure AdaptiveGuard where
  maxNewEntries : Int
  positionWeightMultiplier : ℚ
  stopLossTightenMultiplier : ℚ
  cooldownRequired : Bool
  lossStreakTriggered : Bool
  performanceDeteriorating : Bool
  requireStrongerEntry : Bool
  minEntryScore : ℚ

/-- The clock as one call of `approve_order` reads it: once for itself and, when the
snapshot carries a trading cooldown, once more in the global guard. -/
structure Readings where
  now : Instant
  guardNow : Instant

def rollingTradePnlPct (recentTradePnls : List ℚ) (window : Int) (equity : ℚ) : ℚ :=
  if window ≤ 0 ∨ equity ≤ 0 ∨ recentTradePnls = [] then 0
  else
    let samples := recentTradePnls.drop (recentTradePnls.length - window.toNat)
    samples.sum / equity * 100

def validateStopLoss : Option ℚ → Bool
  | none => false
  | some stopLossPct => decide (0 < stopLossPct)

def evaluateGlobalGuard (limits : RiskLimits) (snapshot : RiskSnapshot) (now : Instant) :
    RiskDecision :=
  let rolling :=
    rollingTradePnlPct snapshot.recentTradePnls limits.rollingLossWindowTrades snapshot.equity
  let lossHalts : RiskDecision :=
    if snapshot.totalPnlPct ≤ -|limits.totalLossLimitPct| then
      ⟨false, .systemOffTotalLoss,
        "Account total loss limit reached: system risk_off (신규 리스크 중단)", true⟩
    else if snapshot.dailyPnlPct ≤ -|limits.dailyLossLimitPct| then
      ⟨false, .haltDailyLoss,
        "Daily loss limit reached: 신규 매수 중단 (청산·매도는 별도 허용)", true⟩
    else if rolling ≤ -|limits.rollingLossLimitPct| then
      ⟨false, .haltRollingLossLimit,
        s!"Rolling loss limit reached ({Num.fixed 2 rolling}% <= -{Num.fixed 2 limits.rollingLossLimitPct}%)",
        false⟩
    else ⟨true, .ok, "Global risk guard passed", false⟩
  match snapshot.tradingCooldownUntil with
  | some until_ =>
    if now < until_ then
      ⟨false, .tradingCooldownActive, s!"Trading cooldown active until {isoformat until_}", false⟩
    else lossHalts
  | none => lossHalts

def buildAdaptiveGuard (limits : RiskLimits) (snapshot : RiskSnapshot) : AdaptiveGuard :=
  let lossStreakTriggered := decide (limits.adaptiveLossStreakThreshold ≤ snapshot.consecutiveLosses)
  let rolling :=
    rollingTradePnlPct snapshot.recentTradePnls limits.rollingLossWindowTrades snapshot.equity
  let performanceDeteriorating := decide (rolling < limits.adaptivePerformanceFloorPct)
  if lossStreakTriggered || performanceDeteriorating then
    { maxNewEntries := limits.adaptiveNewEntriesLimit
      positionWeightMultiplier := limits.adaptivePositionWeightMultiplier
      stopLossTightenMultiplier := limits.adaptiveStopLossTightenMultiplier
      cooldownRequired := lossStreakTriggered && performanceDeteriorating
      lossStreakTriggered := lossStreakTriggered
      performanceDeteriorating := performanceDeteriorating
      requireStrongerEntry := limits.adaptiveEnableEntryFilter
      minEntryScore := limits.adaptiveMinEntryScore }
  else
    { maxNewEntries := limits.maxPositions
      positionWeightMultiplier := 1
      stopLossTightenMultiplier := 1
      cooldownRequired := false
      lossStreakTriggered := false
      performanceDeteriorating := false
      requireStrongerEntry := false
      minEntryScore := limits.adaptiveMinEntryScore }

def validateBuyWeight (limits : RiskLimits) (order : OrderRequest) (price : ℚ)
    (snapshot : RiskSnapshot) (adaptiveWeightMultiplier : ℚ) : RiskDecision :=
  let bearish := snapshot.marketRegime == .bearishTrend
  let currentPositions := snapshot.positionValues.filter (fun kv => 0 < kv.2)
  let held := currentPositions.lookup order.symbol
  let newPositionCount : Int := currentPositions.length + (if held.isNone then 1 else 0)
  let maxPositions :=
    if bearish then min limits.maxPositions limits.bearishMaxPositions else limits.maxPositions
  let weight := (held.getD 0 + order.quantity * price) / snapshot.equity
  let maxWeight :=
    (if bearish then min limits.maxPositionWeight limits.bearishMaxPositionWeight
      else limits.maxPositionWeight) * adaptiveWeightMultiplier
  let effMin :=
    min (if bearish then limits.bearishMinPositionWeight else limits.minPositionWeight)
      (maxWeight * (99 / 100))
  if snapshot.equity ≤ 0 then ⟨false, .invalidEquity, "Equity must be positive", false⟩
  else if maxPositions < newPositionCount then
    if bearish then
      ⟨false, .blockRegimeBearishMaxPositions,
        s!"Bearish regime max holdings exceeded ({maxPositions})", false⟩
    else ⟨false, .maxPositionsExceeded, s!"Maximum {maxPositions} holdings exceeded", false⟩
  else if maxWeight < weight then
    if bearish then
      ⟨false, .blockRegimeBearishPositionWeight,
        s!"Bearish regime position weight exceeds {Num.fixed 1 (maxWeight * 100)}% limit", false⟩
    else
      ⟨false, .positionWeightTooHigh,
        s!"Position weight exceeds {Num.fixed 1 (maxWeight * 100)}% limit", false⟩
  else if weight < effMin then
    ⟨false, .positionWeightTooLow,
      s!"Position weight below minimum ({Num.fixed 1 (effMin * 100)}% required for policy)", false⟩
  else ⟨true, .okWeight, "Position sizing check passed", false⟩

/-- `approve_order` from the check of the order's price on. -/
def approvePricedBuy (limits : RiskLimits) (order : OrderRequest) (snapshot : RiskSnapshot)
    (adaptive : AdaptiveGuard) : RiskDecision :=
  match order.price with
  | none => ⟨false, .invalidOrderPrice, "Buy order requires positive price for risk sizing checks", false⟩
  | some price =>
    let notional := order.quantity * price
    let maxNotional := snapshot.equity * (limits.maxSingleOrderNotionalPct / 100)
    let weightDecision :=
      validateBuyWeight limits order price snapshot adaptive.positionWeightMultiplier
    if price ≤ 0 then
      ⟨false, .invalidOrderPrice, "Buy order requires positive price for risk sizing checks", false⟩
    else if 0 < maxNotional ∧ maxNotional < notional then
      ⟨false, .orderNotionalExceedsCap,
        s!"Single order notional {Num.grouped notional} exceeds cap {Num.grouped maxNotional} ({Num.pyFloat limits.maxSingleOrderNotionalPct}% of equity)",
        false⟩
    else if !weightDecision.approved then weightDecision
    else if snapshot.marketRegime == .bearishTrend then
      ⟨true, .okRegimeBearishBuyConservative, "Bearish regime buy approved with conservative limits",
        false⟩
    else ⟨true, .okBuy, "Buy order approved by risk engine", false⟩

/-- `approve_order` for a buy that passed the global guard. -/
def approveBuy (limits : RiskLimits) (order : OrderRequest) (snapshot : RiskSnapshot)
    (now : Instant) : RiskDecision :=
  let adaptive := buildAdaptiveGuard limits snapshot
  let bearish := snapshot.marketRegime == .bearishTrend
  let maxStopLoss := limits.bearishMaxStopLossPct * adaptive.stopLossTightenMultiplier
  if order.quantity ≤ 0 then
    ⟨false, .orderQuantityInvalid, "Order quantity must be positive", false⟩
  else if limits.allowedSymbols ≠ [] ∧ order.symbol ∉ limits.allowedSymbols then
    ⟨false, .symbolNotAllowed, "Symbol not in allowed universe for automated buys", false⟩
  else if adaptive.cooldownRequired then
    ⟨false, .tradingCooldownRequiredAdaptive,
      "Loss adaptation triggered cooldown due to deteriorating recent performance", false⟩
  else if adaptive.maxNewEntries ≤ snapshot.todaysNewEntries then
    ⟨false, .adaptiveNewEntryLimit,
      s!"Adaptive defense: max new entries reached ({adaptive.maxNewEntries})", false⟩
  else if adaptive.requireStrongerEntry &&
      (snapshot.latestEntryScore.any fun score => score < adaptive.minEntryScore) then
    ⟨false, .adaptiveEntryFilterBlock,
      s!"Adaptive defense: entry score {Num.fixed 2 (snapshot.latestEntryScore.getD 0)} below required {Num.fixed 2 adaptive.minEntryScore}",
      false⟩
  else if snapshot.marketRegime == .highVolatilityRisk && limits.highVolNewEntryBlocked then
    ⟨false, .blockRegimeHighVolatilityNewEntry,
      "High volatility regime: new entries are blocked, only position management allowed", false⟩
  else if bearish && decide (limits.bearishMaxNewEntriesPerDay ≤ snapshot.todaysNewEntries) then
    ⟨false, .blockRegimeBearishNewEntryLimit,
      s!"Bearish regime daily new entry limit reached ({limits.bearishMaxNewEntriesPerDay})", false⟩
  else if !snapshot.marketFilterOk then
    ⟨false, .blockBadMarketFilter, "Market filter is bad: new buy orders are blocked", false⟩
  else if !validateStopLoss order.stopLossPct then
    ⟨false, .missingStopLoss, "Stop-loss is required and must be positive", false⟩
  else if bearish && (order.stopLossPct.any fun stop => maxStopLoss < stop) then
    ⟨false, .blockRegimeBearishStopLossTooWide,
      s!"Bearish regime requires tighter stop-loss <= {Num.fixed 2 maxStopLoss}%", false⟩
  else
    match snapshot.cooldownUntil.lookup order.symbol with
    | some cooldown =>
      if now < cooldown then
        ⟨false, .reentryCooldown, s!"Symbol re-entry cooldown active until {isoformat cooldown}", false⟩
      else approvePricedBuy limits order snapshot adaptive
    | none => approvePricedBuy limits order snapshot adaptive

def approveOrder (limits : RiskLimits) (order : OrderRequest) (snapshot : RiskSnapshot)
    (readings : Readings) : RiskDecision :=
  match order.side with
  | .sell =>
    ⟨true, .okSell, "Sell order allowed: stop-loss / risk reduction priority", false⟩
  | .buy =>
    let globalGuard := evaluateGlobalGuard limits snapshot readings.guardNow
    if !globalGuard.approved then globalGuard
    else approveBuy limits order snapshot readings.now

@[simp] theorem approveOrder_sell {limits : RiskLimits} {order : OrderRequest}
    (snapshot : RiskSnapshot) (readings : Readings) (h : order.side = .sell) :
    (approveOrder limits order snapshot readings).approved = true := by
  simp [approveOrder, h]

end StockQuant.RiskRules
