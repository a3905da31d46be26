import StockQuant.EquityTracker
import StockQuant.LiveCandidateScoring
import StockQuant.LiveExitRules
import StockQuant.OrderModels

namespace StockQuant.LiveAutoGuarded

open StockQuant Clock Json OrderModels EquityTracker LiveAutoState LiveExitRules LiveCandidateScoring

structure LiveAutoConfig where
  executionMode : String
  liveAutoOrder : Bool := false
  liveAutoRequireMarketOpen : Bool := true
  liveAutoStrategy : String := ""
  liveAutoStrategies : String := ""
  liveAutoDailyLossLimitPct : ℚ := 2
  liveAutoTotalDrawdownLimitPct : ℚ := 5
  liveAutoSellEnabled : Bool := true
  liveAutoStopLossEnabled : Bool := true
  liveAutoMaxDailySellCount : Int := 10
  liveAutoDuplicateOrderBlockMinutes : Int := 30
  liveAutoCooldownAfterLossMinutes : Int := 30
  liveAutoBuyEnabled : Bool := false
  liveAutoMaxDailyBuyCount : Int := 3
  liveAutoMaxPositionCount : Int := 5
  liveAutoMinCashBufferKrw : ℚ := 100000
  liveAutoMaxOrderKrw : ℚ := 100000
  liveAutoMaxSymbolExposureKrw : ℚ := 300000
  liveAutoMaxTotalExposureKrw : ℚ := 1000000
  liveAutoCooldownAfterOrderSeconds : Int := 60

/-- The places where a tick reads the clock; the sell loop reads it for each position. -/
inductive Site
  | rollover
  | cooldown
  | marketOpen
  | equity
  | rsiWindow
  | exitRule (i : Nat)
  | sellDup (i : Nat)
  | sellSubmitted (i : Nat)
  | lossCooldown (i : Nat)
  | strategies
  | buyDup
  | buySubmitted
  | orderCooldown
  deriving DecidableEq, Repr

/-- The fields of a quote that may carry the price. -/
structure Quote where
  stckPrpr : Scalar := .null
  last : Scalar := .null
  price : Scalar := .null
  currentPrice : Scalar := .null

structure RsiDiag where
  rsiBlueFlagSell : Bool
  rsiBlueFlagReason : String

/-- One row of a shadow report: a candidate of the final-betting strategy or an order
of another one. -/
structure ReportRow where
  side : String
  symbol : String
  quantity : Scalar
  price : Scalar
  score : Scalar := .null
  candidateId : String := ""
  rationale : String := ""

structure StrategyReport where
  rows : List ReportRow
  diagnostics : List Row := []
  marketMode : Option String := none

structure PerformanceSignal where
  scoreAdjustment : ℚ
  buyBlocked : Bool
  reason : String

structure Token where
  ok : Bool
  accessToken : String
  failureCode : Option String := none

/-- What a tick meets outside itself. A `none` answer stands for an exception. -/
structure TickEnv where
  clock : Site → Instant
  safetyOk : Bool
  accountMode : Option String
  token : Token
  apiBase : String
  positions : Option (List PositionView)
  openOrders : Option (List OpenOrder)
  fills : Option (List Fill)
  cash : Option ℚ
  positionQuote : Nat → Option Quote
  rsi : String → Option RsiDiag
  reports : String → Option StrategyReport
  candidateQuote : String → Option Quote
  strategyPerformance : String → Option PerformanceSignal
  symbolPerformance : String → String → Option PerformanceSignal
  buyQuote : Option Quote
  answer : Nat → Option OrderResult

structure TickRequest where
  requestedStrategyId : Option String := none
  requestedMode : Option String := none

/-- A call of `broker.place_order` with the state it was made in; an answer of `none`
is a call that raised. -/
structure PlacedOrder where
  order : OrderRequest
  state : LiveAutoGuardedState
  answer : Option OrderResult

inductive TickOutcome
  | returned (ok : Bool) (error : Option String) (reason : String)
  | raised

structure TickResult where
  outcome : TickOutcome
  orders : List PlacedOrder
  upserts : List LiveAutoGuardedState
  equity : Option EquityTrackerState

def isLiveBaseUrl (baseUrl : String) : Bool :=
  let b := Text.lower (Text.strip baseUrl)
  b != "" && !Text.hasSub "openapivts" b

def marketOpenOk (requireOpen : Bool) (now : Instant) : Bool :=
  !requireOpen || decide (hms 9 0 0 ≤ kstTime now ∧ kstTime now ≤ hms 15 20 0)

def safePriceFromQuote (q : Quote) : ℚ :=
  let v :=
    if q.stckPrpr.truthy then q.stckPrpr
    else if q.last.truthy then q.last
    else if q.price.truthy then q.price
    else q.currentPrice
  v.float?.getD 0

def supportedAutoStrategies : List String :=
  ["final_betting_v1", "scalp_rsi_flag_hf_v1", "scalp_macd_rsi_3m_v1", "swing_relaxed_v2"]

def parseStrategyList (raw : String) : List String :=
  (((Text.splitOnChar ',' raw).map Text.strip).filter (· != "")).foldl
    (fun out p => if out.contains p then out else out ++ [p]) []

def orElseText (a b : String) : String := if a == "" then b else a

def resolveEffectiveAutoStrategies (cfg : LiveAutoConfig) (st : LiveAutoGuardedState)
    (requestedStrategyId : Option String) : List String :=
  let requested := Text.strip (requestedStrategyId.getD "")
  let selected := Text.strip (st.selectedStrategy.getD "")
  let sel := orElseText requested
    (orElseText selected (orElseText (Text.strip cfg.liveAutoStrategy) "final_betting_v1"))
  let raw := Text.strip cfg.liveAutoStrategies
  let ids :=
    if sel == "multi" then
      if raw == "" then supportedAutoStrategies else parseStrategyList raw
    else [sel]
  ids.filter supportedAutoStrategies.contains

def isScalp (sid : String) : Bool := sid == "scalp_rsi_flag_hf_v1" || sid == "scalp_macd_rsi_3m_v1"

def windowAllowed (strategyId : String) (now : Instant) : Bool :=
  let t := kstTime now
  if Text.strip strategyId == "final_betting_v1" then
    decide (hms 14 30 0 ≤ t ∧ t ≤ hms 15 20 0)
  else if isScalp (Text.strip strategyId) then decide (hms 9 0 0 ≤ t ∧ t ≤ hms 15 20 0)
  else true

/-- `int(diag.get(key) or dflt)`. -/
def diagInt (diag : Row) (key : String) (dflt : Int) : Option Int :=
  if (diag.get key).truthy then (diag.get key).int? else some dflt

def clampScore (base : ℚ) : ℚ := max (45 / 100) (min (12 / 10) base)

def baseScoreFromDiag (diag : Row) (strategyId : String) : ℚ :=
  if isScalp (Text.strip strategyId) then
    let hits : Int :=
      match diagInt diag "momentum_path_hits" 0, diagInt diag "reversal_path_hits" 0,
        diagInt diag "hit_count" 0 with
      | some a, some b, some c => max (max a b) c
      | _, _, _ => 0
    clampScore (65 / 100 + 12 / 100 * (max 0 (hits - 2) : Int))
  else if Text.strip strategyId == "swing_relaxed_v2" then
    let hitsValue :=
      if (diag.get "v2_hit_count").truthy then (diag.get "v2_hit_count").int?
      else diagInt diag "hit_count" 0
    let (hits, minHits) : Int × Int :=
      match hitsValue, diagInt diag "min_hits_required" 2 with
      | some a, some b => (a, b)
      | _, _ => (0, 2)
    clampScore (62 / 100 + 10 / 100 * (max 0 (hits - minHits) : Int))
  else 75 / 100

structure Candidate where
  candidateId : String
  symbol : String
  quantity : Int
  price : Scalar
  strategyId : String
  score : Option ℚ
  rationale : String
  marketMode : Option String

def selectStrategy (req : TickRequest) (st : LiveAutoGuardedState) : LiveAutoGuardedState :=
  match req.requestedStrategyId with
  | some s => { st with
      selectedStrategy := if Text.strip s == "" then none else some (Text.strip s) }
  | none => st

def selectMode (req : TickRequest) (st : LiveAutoGuardedState) : LiveAutoGuardedState :=
  match req.requestedMode, st.selectedStrategy with
  | some raw, some sel =>
    let m := Text.lower (Text.strip raw)
    if sel != "" && ["aggressive", "auto", "passive"].contains m then
      { st with modeByStrategy := setKey sel m st.modeByStrategy }
    else st
  | _, _ => st

def defaultStrategy (cfg : LiveAutoConfig) (st : LiveAutoGuardedState) : LiveAutoGuardedState :=
  if Text.strip (st.selectedStrategy.getD "") == "" then
    { st with
      selectedStrategy := some (orElseText (Text.strip cfg.liveAutoStrategy) "final_betting_v1") }
  else st

/-- The state with which a tick works: rolled over and with its strategy selected. -/
def beginTick (cfg : LiveAutoConfig) (req : TickRequest) (now : Instant)
    (persisted : LiveAutoGuardedState) : LiveAutoGuardedState :=
  defaultStrategy cfg (selectMode req (selectStrategy req (ensureDailyRollover now persisted)))

/-- An early return: the marked state is written and the answer given. -/
structure Stop where
  state : LiveAutoGuardedState
  ok : Bool
  error : Option String

def stop (st : LiveAutoGuardedState) (decision reason : String) (ok : Bool) (error : Option String) :
    Stop :=
  ⟨st.mark decision reason, ok, error⟩

/-- The checks that need no account: enabled, execution mode, order switch and, unless
safety has blocked orders already, cooldown and market hours. -/
def entryGate (cfg : LiveAutoConfig) (env : TickEnv) (st : LiveAutoGuardedState) :
    Except Stop LiveAutoGuardedState :=
  let cooldown := shouldSkipDueToCooldown st.cooldownUntilUtc (env.clock .cooldown)
  let open_ := marketOpenOk cfg.liveAutoRequireMarketOpen (env.clock .marketOpen)
  if !st.enabled then .error (stop st "blocked" "auto_guarded_not_started" true none)
  else if Text.lower (Text.strip cfg.executionMode) != "live_auto_guarded" then
    .error (stop st "blocked" "EXECUTION_MODE is not live_auto_guarded" false
      (some "wrong_execution_mode"))
  else if !cfg.liveAutoOrder then
    .error (stop st "blocked" "LIVE_AUTO_ORDER is not true" true none)
  else if !env.safetyOk then
    .ok (st.mark "blocked_before_order" "runtime_safety_validation failed")
  else if cooldown.1 then .error (stop st "skipped" cooldown.2 true none)
  else if !open_ then
    .error (stop st "skipped" s!"market_closed now_kst={isoformat (kst (env.clock .marketOpen))}"
      true none)
  else .ok st

/-- The checks on the account: credentials, live mode, token and base URL. -/
def accountGate (env : TickEnv) (st : LiveAutoGuardedState) : Except Stop LiveAutoGuardedState :=
  match env.accountMode with
  | none =>
    .error (stop st (if env.safetyOk then "blocked" else "blocked_before_order")
      "broker_credentials_missing" (!env.safetyOk) (some "broker_credentials_missing"))
  | some mode =>
    let tokenReason := orElseText (env.token.failureCode.getD "") "token_not_ready"
    if Text.lower (Text.strip mode) != "live" then
      .error (stop st "blocked" "broker_account_not_live" false (some "broker_account_not_live"))
    else if !env.token.ok || env.token.accessToken == "" then
      .error (stop st "blocked" tokenReason false (some tokenReason))
    else if !isLiveBaseUrl env.apiBase then
      .error (stop st "blocked" s!"invalid_live_base_url base={env.apiBase}" false
        (some "invalid_live_base_url"))
    else .ok st

/-- The account as the tick reads it. -/
structure Account where
  positions : List PositionView
  openOrders : List OpenOrder
  fills : List Fill
  cash : ℚ

def readAccount (env : TickEnv) : Option Account := do
  let positions ← env.positions
  let openOrders ← env.openOrders
  let fills ← env.fills
  let cash ← env.cash
  return ⟨positions, openOrders, fills, cash⟩

/-- `latest_prices`: the last quote of each held symbol, or its average price when the
quote raises. -/
def latestPrices (quote : Nat → Option Quote) (positions : List PositionView) : List (String × ℚ) :=
  (positions.zipIdx.foldl (fun prices (p, i) =>
    if p.symbol == "" then prices
    else
      setKey p.symbol
        (match quote i with
          | some q => safePriceFromQuote q
          | none => p.averagePrice) prices) [])

structure Valuation where
  mvBySymbol : List (String × ℚ) := []
  totalMv : ℚ := 0

/-- `mv_by_symbol` and `total_mv`. -/
def valuation (prices : List (String × ℚ)) (positions : List PositionView) : Valuation :=
  positions.foldl (fun v p =>
    if p.symbol == "" || decide (p.quantity ≤ 0) then v
    else
      let latest := (prices.lookup p.symbol).getD 0
      let px := if latest = 0 then p.averagePrice else latest
      let mv := px * p.quantity
      ⟨setKey p.symbol mv v.mvBySymbol, v.totalMv + mv⟩) {}

/-- The checks on the day's and the total loss. -/
def lossGate (cfg : LiveAutoConfig) (pnl : PnlSnapshot) (st : LiveAutoGuardedState) :
    Except Stop LiveAutoGuardedState :=
  if pnl.dailyPct ≤ -|cfg.liveAutoDailyLossLimitPct| then
    .error (stop st "risk_off" s!"daily_loss_limit_hit daily_pnl_pct={Num.fixed 4 pnl.dailyPct}" true none)
  else if pnl.totalPct ≤ -|cfg.liveAutoTotalDrawdownLimitPct| then
    .error (stop st "risk_off" s!"total_drawdown_limit_hit total_pnl_pct={Num.fixed 4 pnl.totalPct}"
      true none)
  else .ok st

/-- `rsi_sell_by_symbol.get(sym)`: only the final-betting strategy looks at the charts,
and only in the morning. -/
def rsiDiagFor (env : TickEnv) (st : LiveAutoGuardedState) (positions : List PositionView)
    (sym : String) : Option RsiDiag :=
  let t := kstTime (env.clock .rsiWindow)
  if Text.strip (st.selectedStrategy.getD "") == "final_betting_v1" &&
      decide (hms 9 0 0 ≤ t ∧ t ≤ hms 11 0 0) &&
      (positions.map fun p => Text.strip p.symbol).contains sym then
    env.rsi sym
  else none

/-- The exit decision for the `i`-th position. -/
def sellDecision (cfg : LiveAutoConfig) (env : TickEnv) (st : LiveAutoGuardedState)
    (trailing : Trailing) (positions : List PositionView) (prices : List (String × ℚ))
    (p : PositionView) (i : Nat) : ExitDecision × Trailing :=
  let px := (prices.lookup p.symbol).getD 0
  let exit (takeProfitEnabled : Bool) :=
    evaluateExitForPosition p.symbol p.quantity p.averagePrice px st.selectedStrategy
      { stopLossEnabled := cfg.liveAutoStopLossEnabled
        takeProfitEnabled := takeProfitEnabled
        trailingEnabled := true }
      (env.clock (.exitRule i)) trailing
  match rsiDiagFor env st positions p.symbol with
  | some diag =>
    if diag.rsiBlueFlagSell ∧ 0 < p.averagePrice ∧ p.averagePrice < px then
      let (decision, trailing) := exit false
      if decision.shouldSell then (decision, trailing)
      else
        (⟨true, p.symbol, p.quantity, Text.strip s!"rsi_flag_take_profit {diag.rsiBlueFlagReason}"⟩,
          trailing)
    else exit true
  | none => exit true

/-- The local variables of the sell loop. -/
structure SellState where
  st : LiveAutoGuardedState
  trailing : Trailing := []
  orders : List PlacedOrder := []
  raised : Bool := false

def sellOrder (p : PositionView) (decision : ExitDecision) : OrderRequest where
  symbol := p.symbol
  side := .sell
  quantity := decision.quantity
  price := some 0
  strategyId := "live_auto_guarded"
  signalReason := some decision.reason

/-- The state after a sell that the broker answered. -/
def sellSubmitted (cfg : LiveAutoConfig) (env : TickEnv) (st : LiveAutoGuardedState)
    (p : PositionView) (i : Nat) (reason : String) : LiveAutoGuardedState :=
  let st := { st with
    dailySellCount := st.dailySellCount + 1
    recentSubmits :=
      setKey (dupKey "sell" p.symbol) (.at (env.clock (.sellSubmitted i))) st.recentSubmits }
  if Text.hasSub "stop_loss" reason then
    setCooldownAfterLoss st cfg.liveAutoCooldownAfterLossMinutes (env.clock (.lossCooldown i))
  else st

/-- One pass of the sell loop. -/
def sellOne (cfg : LiveAutoConfig) (env : TickEnv) (positions : List PositionView)
    (prices : List (String × ℚ)) (s : SellState) (pi : PositionView × Nat) : SellState :=
  let (p, i) := pi
  if s.raised || p.symbol == "" || decide (p.quantity ≤ 0) then s
  else
    let (decision, trailing) := sellDecision cfg env s.st s.trailing positions prices p i
    let s := { s with trailing := trailing }
    if !decision.shouldSell then s
    else if cfg.liveAutoMaxDailySellCount ≤ s.st.dailySellCount then s
    else if (recentDupBlocked s.st "sell" p.symbol cfg.liveAutoDuplicateOrderBlockMinutes
        (env.clock (.sellDup i))).1 then s
    else if !env.safetyOk then s
    else
      let answer := env.answer s.orders.length
      let placed : PlacedOrder := ⟨sellOrder p decision, s.st, answer⟩
      match answer with
      | none => { s with orders := s.orders ++ [placed], raised := true }
      | some _ =>
        { s with
          st := sellSubmitted cfg env s.st p i decision.reason
          orders := s.orders ++ [placed] }

def sellPhase (cfg : LiveAutoConfig) (env : TickEnv) (st : LiveAutoGuardedState)
    (positions : List PositionView) (prices : List (String × ℚ)) : SellState :=
  if cfg.liveAutoSellEnabled then
    positions.zipIdx.foldl (sellOne cfg env positions prices) { st := st }
  else { st := st }

/-- A row of a report as a buy candidate; `none` when its quantity does not parse. -/
def candidateOf (sid : String) (report : StrategyReport) (r : ReportRow) : Option Candidate := do
  let quantity ← if r.quantity.truthy then r.quantity.int? else some 0
  let finalBetting := sid == "final_betting_v1"
  let diag := (report.diagnostics.find? fun d => d.getStr "symbol" == r.symbol).getD []
  return {
    candidateId := if finalBetting then r.candidateId else s!"{sid}:{r.symbol}"
    symbol := r.symbol
    quantity := quantity
    price := r.price
    strategyId := sid
    score :=
      if finalBetting then r.score.float?.map fun base => (base - 50) / 50
      else some (baseScoreFromDiag diag sid)
    rationale := r.rationale
    marketMode := report.marketMode }

/-- The buy candidates of one strategy. A report that cannot be made fails the tick,
except the final-betting one. -/
def strategyCandidates (env : TickEnv) (sid : String) : Option (List Candidate) :=
  if !windowAllowed sid (env.clock .strategies) then some []
  else
    match env.reports sid with
    | none => if sid == "final_betting_v1" then some [] else none
    | some report =>
      (report.rows.filter fun r => Text.lower r.side == "buy" && r.symbol != "").mapM
        (candidateOf sid report)

def allCandidates (cfg : LiveAutoConfig) (env : TickEnv) (req : TickRequest)
    (st : LiveAutoGuardedState) : Option (List Candidate) :=
  if cfg.liveAutoBuyEnabled || !env.safetyOk then
    ((resolveEffectiveAutoStrategies cfg st req.requestedStrategyId).mapM
      (strategyCandidates env)).map List.flatten
  else some []

def performanceBundle (env : TickEnv) (sid sym : String) : PerformanceBundle :=
  let ps := (env.strategyPerformance sid).getD ⟨0, false, "perf_unavailable"⟩
  let pxs := (env.symbolPerformance sid sym).getD ⟨0, false, "symbol_perf_unavailable"⟩
  { scoreAdjustment := ps.scoreAdjustment + pxs.scoreAdjustment
    buyBlocked := ps.buyBlocked || pxs.buyBlocked
    reason := Text.take 700 s!"strategy({ps.reason}) | symbol({pxs.reason})" }

def quotePrice (q : Option Quote) : ℚ := (q.map safePriceFromQuote).getD 0

/-- The price a candidate is scored at: its own, or else the quote of its symbol. -/
def candidatePrice (env : TickEnv) (c : Candidate) : ℚ :=
  match c.price.float? with
  | some p => if p ≤ 0 then quotePrice (env.candidateQuote c.symbol) else p
  | none => quotePrice (env.candidateQuote c.symbol)

/-- The candidate with the quoted price filled in. -/
def priced (env : TickEnv) (c : Candidate) : Candidate :=
  match c.price.float? with
  | some p =>
    if p ≤ 0 ∧ 0 < candidatePrice env c then { c with price := .float (candidatePrice env c) } else c
  | none => if 0 < candidatePrice env c then { c with price := .float (candidatePrice env c) } else c

def candidateScore (env : TickEnv) (acc : Account) (c : Candidate) : LiveCandidateScore :=
  let price := candidatePrice env c
  scoreCandidate c.symbol c.score (if 0 < price then some price else none) c.marketMode
    (acc.positions.any fun p => p.symbol == c.symbol)
    (acc.openOrders.any fun o => o.symbol == c.symbol && o.side == .buy)
    (performanceBundle env c.strategyId c.symbol)

structure Best where
  candidate : Candidate
  score : ℚ
  reason : String

/-- The first candidate with the highest score above -999. -/
def pickBest (env : TickEnv) (acc : Account) (candidates : List Candidate) : Option Best :=
  candidates.foldl (fun best c =>
    let sc := candidateScore env acc c
    let bestScore := (best.map Best.score).getD (-999)
    if bestScore < sc.score then some ⟨priced env c, sc.score, sc.reason⟩ else best) none

structure BuyState where
  st : LiveAutoGuardedState
  order : Option PlacedOrder := none
  raised : Bool := false

/-- The reference price of the chosen candidate, 0 when there is none. -/
def referencePrice (env : TickEnv) (c : Candidate) : ℚ :=
  let px := c.price.float?.getD 0
  if px ≤ 0 then quotePrice env.buyQuote else px

def buyQuantity (c : Candidate) : Int := if c.quantity ≤ 0 then 1 else c.quantity

def estimatedCost (cfg : LiveAutoConfig) (px : ℚ) (qty : Int) : ℚ :=
  if 0 < px then px * qty else cfg.liveAutoMaxOrderKrw

def buyOrder (best : Best) (px : ℚ) (qty : Int) : OrderRequest where
  symbol := best.candidate.symbol
  side := .buy
  quantity := qty
  price := some (if px ≤ 0 then 0 else px)
  strategyId := "live_auto_guarded"
  signalReason := some
    s!"auto_buy src={best.candidate.strategyId} score={Num.fixed 3 best.score} | {best.reason}"

/-- The exposure checks on the chosen candidate, and its order. -/
def buyBest (cfg : LiveAutoConfig) (env : TickEnv) (val : Valuation) (sent : Nat) (best : Best)
    (st : LiveAutoGuardedState) : BuyState :=
  let sym := best.candidate.symbol
  let px := referencePrice env best.candidate
  let qty := buyQuantity best.candidate
  let estCost := estimatedCost cfg px qty
  if cfg.liveAutoMaxOrderKrw < estCost then { st := st }
  else if cfg.liveAutoMaxSymbolExposureKrw < (val.mvBySymbol.lookup sym).getD 0 + estCost then
    { st := st }
  else if cfg.liveAutoMaxTotalExposureKrw < val.totalMv + estCost then { st := st }
  else if (recentDupBlocked st "buy" sym cfg.liveAutoDuplicateOrderBlockMinutes
      (env.clock .buyDup)).1 then { st := st }
  else if !env.safetyOk then { st := st }
  else
    let answer := env.answer sent
    let placed : PlacedOrder := ⟨buyOrder best px qty, st, answer⟩
    match answer with
    | none => { st := st, order := some placed, raised := true }
    | some _ =>
      { st := { st with
          dailyBuyCount := st.dailyBuyCount + 1
          recentSubmits := setKey (dupKey "buy" sym) (.at (env.clock .buySubmitted)) st.recentSubmits }
        order := some placed }

def buyPhase (cfg : LiveAutoConfig) (env : TickEnv) (acc : Account) (val : Valuation)
    (candidates : List Candidate) (sent : Nat) (st : LiveAutoGuardedState) : BuyState :=
  if cfg.liveAutoBuyEnabled ∧ st.dailyBuyCount < cfg.liveAutoMaxDailyBuyCount ∧
      (acc.positions.length : Int) < cfg.liveAutoMaxPositionCount ∧
      cfg.liveAutoMaxOrderKrw < acc.cash - cfg.liveAutoMinCashBufferKrw then
    match pickBest env acc candidates with
    | none => { st := st }
    | some best => if 1 / 2 ≤ best.score then buyBest cfg env val sent best st else { st := st }
  else { st := st }

/-- The state written at the end of a tick that came through. -/
def finishTick (cfg : LiveAutoConfig) (env : TickEnv) (sells buys : Nat)
    (st : LiveAutoGuardedState) : LiveAutoGuardedState :=
  let st :=
    if 0 < cfg.liveAutoCooldownAfterOrderSeconds ∧ 0 < sells + buys then
      { st with
        cooldownUntilUtc := some (.at (env.clock .orderCooldown +
          cfg.liveAutoCooldownAfterOrderSeconds * microsPerSecond)) }
    else st
  st.mark "ok" s!"sell_submitted={sells} buy_submitted={buys}"

def stopped (s : Stop) (upserts : List LiveAutoGuardedState) (equity : Option EquityTrackerState) :
    TickResult :=
  ⟨.returned s.ok s.error s.state.lastReason, [], upserts ++ [s.state], equity⟩

/-- The orders of a tick whose account, valuation and loss checks came through. -/
def tradePhase (cfg : LiveAutoConfig) (env : TickEnv) (req : TickRequest) (acc : Account)
    (st : LiveAutoGuardedState) (upserts : List LiveAutoGuardedState)
    (equity : Option EquityTrackerState) : TickResult :=
  let prices := latestPrices env.positionQuote acc.positions
  let val := valuation prices acc.positions
  let sells := sellPhase cfg env st acc.positions prices
  if sells.raised then ⟨.raised, sells.orders, upserts, equity⟩
  else
    match allCandidates cfg env req sells.st with
    | none => ⟨.raised, sells.orders, upserts, equity⟩
    | some candidates =>
      let buy := buyPhase cfg env acc val candidates sells.orders.length sells.st
      let orders := sells.orders ++ buy.order.toList
      if buy.raised then ⟨.raised, orders, upserts, equity⟩
      else
        let final := finishTick cfg env sells.orders.length buy.order.toList.length buy.st
        ⟨.returned true none final.lastReason, orders, upserts ++ [final], equity⟩

def tickLiveAutoGuarded (cfg : LiveAutoConfig) (env : TickEnv) (req : TickRequest)
    (persisted : LiveAutoGuardedState) (equity : Option EquityTrackerState) : TickResult :=
  match entryGate cfg env (beginTick cfg req (env.clock .rollover) persisted) with
  | .error s => stopped s [] equity
  | .ok st =>
    let upserts := if env.safetyOk then [] else [st]
    match accountGate env st with
    | .error s => stopped s upserts equity
    | .ok st =>
      match readAccount env with
      | none => ⟨.raised, [], upserts, equity⟩
      | some acc =>
        let val := valuation (latestPrices env.positionQuote acc.positions) acc.positions
        let (pnl, equity) := pnlSnapshot equity (env.clock .equity) (acc.cash + val.totalMv) true
        match lossGate cfg pnl st with
        | .error s => stopped s upserts equity
        | .ok st => tradePhase cfg env req acc st upserts equity

end StockQuant.LiveAutoGuarded
