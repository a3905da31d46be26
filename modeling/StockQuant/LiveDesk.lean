import StockQuant.DailyCycle
import StockQuant.FinalBettingV1
import StockQuant.KstDays
import StockQuant.LivePrep

namespace StockQuant.LiveDesk

open StockQuant Clock OrderModels Strategy MarketRegime MarketMode KisParsers
open LiveAutoGuarded IntradaySession IntradayState FinalBettingBars FinalBetting
open FinalBettingExits FinalBettingV1 LivePrep KstDays

/-- What opening a user's account meets: its mode, or the exception of reading the credentials,
and the token. -/
structure AccountAccess where
  mode : Except String String
  token : Token

def buildLiveClientAndBroker (access : AccountAccess) : Except String Unit :=
  match access.mode with
  | .error _ => .error "broker_credentials_missing"
  | .ok mode =>
    if Text.lower (Text.strip mode) != "live" then .error "broker_account_not_live"
    else if !access.token.ok || access.token.accessToken == "" then
      .error (orElseText (access.token.failureCode.getD "") "token_not_ready")
    else .ok ()

structure DeskConfig where
  finalBetting : FinalBettingConfig := {}
  krx : KrxSessionConfig := {}
  symbols : List String
  ops : FloatOps

/-- The times at which a pass of the desk reads the clock. -/
structure DeskClock where
  sessionAt : Instant
  proxyAt : Instant
  loadedAt : Instant
  now : Instant
  savedAt : Instant

/-- What a pass of the desk meets outside. An `error` is an exception with its text. -/
structure DeskEnv where
  access : AccountAccess
  clock : DeskClock
  universe1m : Except String (List Bar)
  kospi : List IndexRow
  quoteBySymbol : String → Option Payload := fun _ => none
  positions : Except String (List PositionView)
  cash : Except String ℚ
  manualMarketMode : Option String := none

/-- There is no series of the S&P 500 here: it is made from the KOSPI, whose rows are dated by
the number of the day. -/
def buildMockSp500ProxyFromKospi (day : Int) (kospi : List IndexRow) : List IndexRow :=
  if kospi = [] then (List.range 40).map fun i => ⟨day - (40 - i), 4500 + i⟩
  else (kospi.insertionSort fun a b => a.date ≤ b.date).map fun r =>
    { r with value := r.value * (25 / 100000) + 4000 }

def buildPositionsDf (positions : List PositionView) : List PortfolioRow :=
  positions.map fun p =>
    { symbol := p.symbol, quantity := p.quantity, averagePrice := p.averagePrice,
      holdDays := some 0 }

def latestClose (universe1m : List Bar) (symbol : String) : ℚ :=
  (((universe1m.filter fun b => b.symbol = symbol).getLast?).map Bar.close).getD 0

def computeEquityFromUniverse (universe1m : List Bar) (cash : ℚ) (positions : List PositionView) :
    ℚ :=
  cash + (positions.map fun p =>
    if p.quantity ≤ 0 ∨ p.symbol = "" then 0
    else
      let px := latestClose universe1m p.symbol
      (if px ≤ 0 then p.averagePrice else px) * p.quantity).sum

/-- What the strategy is given in a pass of the desk. -/
def deskInput (cfg : DeskConfig) (env : DeskEnv) (universe1m : List Bar)
    (positions : List PositionView) (cash : ℚ) : FinalBettingInput :=
  let sp500 := buildMockSp500ProxyFromKospi (kstDay env.clock.proxyAt) env.kospi
  let vol := DailyCycle.buildMockVolatilitySeries (kstDay env.clock.proxyAt) env.kospi
  { context :=
      { prices := universe1m
        kospiIndex := env.kospi
        sp500Index := sp500
        portfolio := buildPositionsDf positions }
    session := getKrxSessionState cfg.krx env.clock.sessionAt
    now := env.clock.now
    config := cfg.finalBetting
    quoteBySymbol := env.quoteBySymbol
    marketMode :=
      composePaperMarketModeBundle cfg.ops.std env.manualMarketMode ⟨env.kospi, sp500, vol⟩ {}
    equityKrw := computeEquityFromUniverse universe1m cash positions
    ops := cfg.ops }

/-- What ends a pass of the desk before its strategy has run. -/
inductive DeskStop
  | refused (error : String)
  | raised (text : String)
  deriving DecidableEq, Repr

/-- The state file that a pass of the desk leaves, and the orders of its strategy. -/
structure DeskPass where
  file : Option IntradayPaperState
  orders : Except DeskStop (List OrderRequest)

/-- What the strategy of a pass is given, if the pass gets that far. -/
def readDesk (cfg : DeskConfig) (env : DeskEnv) : Except DeskStop FinalBettingInput := do
  match buildLiveClientAndBroker env.access with
  | .error error => .error (.refused error)
  | .ok () =>
    if (cfg.symbols.map Text.strip).filter (· != "") = [] then .error (.refused "empty_symbols")
    else
      let universe1m ← env.universe1m.mapError .raised
      let positions ← env.positions.mapError .raised
      let cash ← env.cash.mapError .raised
      .ok (deskInput cfg env universe1m positions cash)

/-- One pass: the state is loaded, the strategy runs on it, the state is saved. The records
that the strategy keeps back for its entries go nowhere. -/
def deskPass (cfg : DeskConfig) (env : DeskEnv) (file : Option IntradayPaperState) : DeskPass :=
  match readDesk cfg env with
  | .error stop => ⟨file, .error stop⟩
  | .ok input =>
    let report := generateSignals input (load env.clock.loadedAt file)
    ⟨save env.clock.savedAt report.state, .ok (report.signals.map StrategySignal.toOrder)⟩

/-- The sell orders of a user's holdings, and the state file with them. -/
def computeFinalBettingExitOrdersLive (cfg : DeskConfig) (env : DeskEnv)
    (file : Option IntradayPaperState) : DeskPass :=
  let pass := deskPass cfg env file
  { pass with orders := pass.orders.map fun orders => orders.filter fun o => o.side = .sell }

def candidateOf (o : OrderRequest) (stopLossPct : Option ℚ) (id : String) : LiveCandidate where
  candidateId := id
  status := .approvalPending
  symbol := o.symbol
  side := o.side
  strategyId := orElseText o.strategyId "final_betting_v1"
  quantity := o.quantity
  price := o.price
  stopLossPct := stopLossPct

/-- The candidates made from the orders of a pass; `newId` are the identifiers drawn for them. -/
def shadowCandidates (limit : Int) (newId : Nat → String) (orders : List OrderRequest) :
    List LiveCandidate :=
  let buys := (orders.filter fun o => o.side = .buy).take (max 1 (min limit 5)).toNat
  let sells := (orders.filter fun o => o.side = .sell).take 10
  buys.mapIdx (fun i o => candidateOf o o.stopLossPct (newId i)) ++
    sells.mapIdx fun i o => candidateOf o none (newId (buys.length + i))

/-- The candidates of a pass, and the state file with them. A pass that raises is refused. -/
def generateFinalBettingShadowCandidates (cfg : DeskConfig) (env : DeskEnv) (limit : Int)
    (newId : Nat → String) (file : Option IntradayPaperState) :
    Option IntradayPaperState × Option (List LiveCandidate) :=
  let pass := deskPass cfg env file
  (pass.file, (pass.orders.map (shadowCandidates limit newId)).toOption)

/-- The entry date that a state file has on record for a symbol, empty without a record. -/
def fileDate (file : Option IntradayPaperState) (symbol : String) : String :=
  (file.map fun state => entryDateOf state symbol).getD ""

section Records

variable {cfg : DeskConfig} {env : DeskEnv} {file : Option IntradayPaperState}

theorem entryDateOf_rollDay (now : Instant) (state : IntradayPaperState) (symbol : String) :
    entryDateOf (rollDay now state) symbol = entryDateOf state symbol := by
  rw [entryDateOf, rollDay_positions, entryDateOf]

theorem entryDateOf_load (now : Instant) (file : Option IntradayPaperState) (symbol : String) :
    entryDateOf (load now file) symbol = fileDate file symbol := by
  cases file with
  | none => rfl
  | some state => exact entryDateOf_rollDay now state symbol

/-- A pass dates no record and redates none, whatever its strategy enters. -/
theorem deskPass_fileDate (cfg : DeskConfig) (env : DeskEnv) (file : Option IntradayPaperState)
    (symbol : String) : fileDate (deskPass cfg env file).file symbol = fileDate file symbol := by
  unfold deskPass
  cases readDesk cfg env with
  | error stop => rfl
  | ok input =>
    have hsaved : ∀ state, fileDate (save env.clock.savedAt state) symbol = entryDateOf state symbol :=
      fun state => entryDateOf_rollDay _ state symbol
    dsimp only
    rw [hsaved, generateSignals_entryDateOf, entryDateOf_load]

theorem filter_sell_toOrder (signals : List StrategySignal) :
    (signals.map StrategySignal.toOrder).filter (fun o => o.side = .sell) =
      (signals.filter fun s => s.side = .sell).map StrategySignal.toOrder := by
  rw [List.filter_map]
  rfl

/-- Without a dated record no sell order comes out of a pass. -/
theorem exitOrders_undated (hundated : ∀ symbol, fileDate file symbol = "")
    {orders : List OrderRequest}
    (horders : (computeFinalBettingExitOrdersLive cfg env file).orders = .ok orders) :
    orders = [] := by
  unfold computeFinalBettingExitOrdersLive deskPass at horders
  cases hread : readDesk cfg env with
  | error stop => simp [hread, Except.map] at horders
  | ok input =>
    have hnone : ∀ symbol, entryDateOf (load env.clock.loadedAt file) symbol = "" :=
      fun symbol => (entryDateOf_load _ file symbol).trans (hundated symbol)
    simp only [hread, Except.map, Except.ok.injEq] at horders
    rw [filter_sell_toOrder, sells_undated input hnone] at horders
    exact horders.symm

end Records

end StockQuant.LiveDesk
