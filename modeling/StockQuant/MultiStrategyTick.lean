import StockQuant.IntradayCycle
import StockQuant.MinuteBars
import StockQuant.ScalpMomentum
import StockQuant.StrategyRouter

namespace StockQuant.MultiStrategyTick

open StockQuant Clock OrderModels Strategy Brokers DailyCycle MinuteBars StrategyRouter
open IntradaySession IntradayState IntradayIndicators ScalpStrategy IntradayCycle

/-- A strategy of the daily cycle. It sends orders only for symbols that have price rows. -/
structure DailyStrategy where
  generateOrders : StrategyContext → List OrderRequest
  orders_symbol : ∀ context, ∀ o ∈ generateOrders context,
    o.symbol ∈ context.prices.map Bar.symbol

def swingV1 (std : List ℚ → ℚ) (s : SwingStrategy.Swing) : DailyStrategy where
  generateOrders context :=
    (SwingStrategy.generateSignals std s context).signals.map StrategySignal.toOrder
  orders_symbol context o ho := by
    obtain ⟨signal, hsignal, rfl⟩ := List.mem_map.mp ho
    exact SwingStrategy.generateSignals_symbol hsignal

def swingRelaxedV2 (std : List ℚ → ℚ) (s : SwingRelaxedV2.RelaxedV2) (today : String)
    (store : Option (Option SwingRelaxedV2State.SwingRelaxedV2PaperState)) : DailyStrategy where
  generateOrders context :=
    (SwingRelaxedV2.generateSignals std s context today store).signals.map
      StrategySignal.toOrder
  orders_symbol context o ho := by
    obtain ⟨signal, hsignal, rfl⟩ := List.mem_map.mp ho
    exact (SwingRelaxedV2.generateSignals_symbol hsignal).1

/-- `intraday_fallback_symbols` -/
def intradayFallbackSymbols : List String :=
  ["005930", "000660", "035420", "035720", "005380", "000270", "207940", "068270", "105560",
    "055550", "005490", "373220", "006400", "051910", "012450", "034020", "329180", "015760",
    "003490", "011200", "096770", "028260", "012330", "005935", "323410"]

structure MultiConfig where
  paperTradingSymbols : String := ""
  paperIntradaySymbols : String := ""
  preferScalpOnOverlap : Bool := true
  smokeMode : Bool := false
  swingCapitalPct : ℚ := 60
  intradayCapitalPct : ℚ := 40
  experimentalScalpEnabled : Bool := true
  experimentalScalpCapitalPct : ℚ := 25
  session : KrxSessionConfig := {}
  intraday : IntradayConfig := { multiStrategyMode := true }

def resolvedIntradaySymbolList (cfg : MultiConfig) : List String :=
  if Text.strip cfg.paperIntradaySymbols = "" then intradayFallbackSymbols
  else (parseCsv (Text.strip cfg.paperIntradaySymbols)).take 60

/-- Everything one tick is given or meets: the settings, both strategies, the charts and
quotes of KIS, the clock when the session is analysed and the flatten decided, what each leg
meets besides, and what KIS does with the account between the legs. -/
structure MultiInput where
  config : MultiConfig := {}
  swing : DailyStrategy
  scalp : ScalpRules
  dailyCharts : String → List ChartRow := fun _ => []
  minuteCharts : String → List ChartRow := fun _ => []
  kospi : List IndexRow := []
  sp500 : List IndexRow := []
  cash : ℚ := 0
  stateAt : Instant
  fetchAt : Instant
  orderAt : Instant
  flattenAt : Instant
  swingDesk : CycleInput
  scalpDesk : IntradayInput
  between : Broker → Broker := id

variable (i : MultiInput)

def MultiInput.route : MultiLegRouteResult :=
  routeSwingVsScalpSymbols i.config.paperTradingSymbols (resolvedIntradaySymbolList i.config)
    i.config.preferScalpOnOverlap

/-- The smoke mode keeps the first symbol of a leg. -/
def MultiInput.legSymbols (symbols : List String) : List String :=
  if i.config.smokeMode then symbols.take 1 else symbols

/-- The cycle of the swing leg: the daily bars of its own symbols. -/
def MultiInput.swingCycle : CycleInput :=
  { i.swingDesk with
    priceUniverse := buildUniverse i.dailyCharts (i.legSymbols i.route.swingSymbols)
    kospi := i.kospi
    sp500 := i.sp500
    generateOrders := i.swing.generateOrders }

/-- `_run_swing_daily_tick`, with the orders it submits. -/
def runSwingDailyTick (w : World) : World × List OrderRequest :=
  if i.route.swingSymbols = [] then (w, [])
  else
    let (w', report) := runDailyCycle i.swingCycle w
    (w', report.submitted)

def threeMinuteStrategies : List String :=
  ["scalp_momentum_v1", "scalp_macd_rsi_3m_v1", "scalp_rsi_flag_hf_v1",
    "intraday_rsi_flag_hf_v1"]

/-- The equity and the intraday budget the router hands to the scalp strategy, from the
account at the start of the tick. -/
def MultiInput.sizing (broker : Broker) : Sizing :=
  let mv := (broker.getPositions.map fun p => (p.quantity : ℚ) * p.averagePrice).sum
  let legs := notionalsForLegs (i.cash + mv) i.cash i.config.swingCapitalPct
    i.config.intradayCapitalPct
  { experimentalCapitalScale :=
      if i.config.experimentalScalpEnabled ∧
          i.scalp.strategyName ∈ ["scalp_momentum_v2", "scalp_momentum_v3"] then
        max 0 (min 1 (i.config.experimentalScalpCapitalPct / 100))
      else 1
    routerEquityKrw := i.cash + mv
    routerIntradayBudgetKrw := legs.intradayNotionalKrw }

/-- The minute bars of the scalp leg's own symbols, when they may be fetched. -/
def MultiInput.universe1m : List Bar :=
  if (evaluateIntradayFetchGate i.config.session i.fetchAt).1 then
    buildUniverse i.minuteCharts (i.legSymbols i.route.scalpSymbols)
  else []

def MultiInput.scalpCycle (broker : Broker) : IntradayInput :=
  { i.scalpDesk with
    universeTf :=
      if i.scalp.strategyName ∈ threeMinuteStrategies then universeAsTimeframe 3 i.universe1m
      else i.universe1m
    kospi := i.kospi
    sp500 := i.sp500
    rules := i.scalp
    config := i.config.intraday
    sessionConfig := i.config.session
    session := analyzeKrxIntradaySession i.config.session i.stateAt i.fetchAt i.orderAt
    sizing := i.sizing broker
    flattenAt := i.flattenAt }

structure MultiTick where
  after : IntradayWorld
  swingSubmitted : List OrderRequest
  scalpSubmitted : List OrderRequest

/-- The account and files as the scalp leg finds them. -/
def betweenLegs (w : IntradayWorld) : IntradayWorld :=
  let w' := (runSwingDailyTick i w.world).1
  { w with world := { w' with broker := i.between w'.broker } }

/-- `_run_multi_strategy_tick`: the swing leg, then the scalp leg, over one account. -/
def runMultiStrategyTick (w : IntradayWorld) : MultiTick :=
  let swingSubmitted := (runSwingDailyTick i w.world).2
  let w' := betweenLegs i w
  if i.route.scalpSymbols = [] then ⟨w', swingSubmitted, []⟩
  else
    let (after, report) := runIntradayCycle (i.scalpCycle w.world.broker) w'
    ⟨after, swingSubmitted, report.submitted⟩

/-- Neither leg of the tick submits an order for a symbol of the other leg. -/
def LegsIsolated (w : IntradayWorld) : Prop :=
  (∀ o ∈ (runMultiStrategyTick i w).scalpSubmitted, o.symbol ∉ i.route.swingSymbols) ∧
    ∀ o ∈ (runMultiStrategyTick i w).swingSubmitted, o.symbol ∉ i.route.scalpSymbols

/-- The scalp leg runs and may send orders, inside the flatten window, and finds a holding of
the swing leg in the account. -/
structure FlattensSwingHolding (w : IntradayWorld) : Prop where
  scalpRuns : i.route.scalpSymbols ≠ []
  sessionOpen : getKrxSessionState i.config.session i.stateAt ≠ .closed
  orderable : getKrxSessionState i.config.session i.orderAt = .regular
  flattens : shouldForceFlattenBeforeClose i.config.session
    i.config.intraday.flattenBeforeCloseMinutes i.flattenAt = true
  notHalted : halts (i.scalpCycle w.world.broker).desk (betweenLegs i w).world = false
  rowsFound : ∀ p ∈ (betweenLegs i w).world.broker.getPositions,
    ∃ q ∈ (betweenLegs i w).world.broker.getPositions, q.symbol = Text.strip p.symbol
  swingHeld : ∃ p ∈ (betweenLegs i w).world.broker.getPositions,
    p.symbol ∈ i.route.swingSymbols ∧ 0 < p.averagePrice

variable {i} {w : IntradayWorld}

theorem mem_legSymbols {symbols : List String} {symbol : String}
    (h : symbol ∈ i.legSymbols symbols) : symbol ∈ symbols := by
  unfold MultiInput.legSymbols at h
  split at h
  · exact List.mem_of_mem_take h
  · exact h

theorem swingUniverse_symbol {symbol : String}
    (h : symbol ∈ i.swingCycle.priceUniverse.map Bar.symbol) : symbol ∈ i.route.swingSymbols := by
  obtain ⟨s, hs, rfl⟩ := mem_buildUniverse h
  rw [route_swing_stripped (mem_legSymbols hs)]
  exact mem_legSymbols hs

theorem scalpUniverse_symbol {broker : Broker} {symbol : String}
    (h : symbol ∈ (i.scalpCycle broker).universeTf.map Bar.symbol) :
    symbol ∈ i.route.scalpSymbols := by
  have hminute : symbol ∈ i.universe1m.map Bar.symbol := by
    unfold MultiInput.scalpCycle at h
    dsimp only at h
    split at h
    · exact mem_universeAsTimeframe h
    · exact h
  unfold MultiInput.universe1m at hminute
  split at hminute
  · obtain ⟨s, hs, rfl⟩ := mem_buildUniverse hminute
    rw [route_scalp_stripped (mem_legSymbols hs)]
    exact mem_legSymbols hs
  · cases hminute

/-- The swing leg sends orders for its own symbols only. -/
theorem swingSubmitted_symbol {o : OrderRequest}
    (h : o ∈ (runSwingDailyTick i w.world).2) : o.symbol ∈ i.route.swingSymbols := by
  unfold runSwingDailyTick at h
  split at h
  · cases h
  · exact swingUniverse_symbol (i.swing.orders_symbol _ _ (runDailyCycle_submitted h))

theorem swingSubmitted_isolated {o : OrderRequest}
    (h : o ∈ (runMultiStrategyTick i w).swingSubmitted) : o.symbol ∉ i.route.scalpSymbols := by
  apply route_disjoint
  apply swingSubmitted_symbol (w := w)
  unfold runMultiStrategyTick at h
  dsimp only at h
  split at h <;> exact h

/-- Only the flatten of a swing holding takes the scalp leg to a symbol of the swing leg. -/
theorem scalpSubmitted_isolated (h : ¬FlattensSwingHolding i w) {o : OrderRequest}
    (ho : o ∈ (runMultiStrategyTick i w).scalpSubmitted) : o.symbol ∉ i.route.swingSymbols := by
  intro hswing
  unfold runMultiStrategyTick at ho
  dsimp only at ho
  split at ho
  · cases ho
  · case isFalse hscalp =>
    obtain hbars | ⟨hhalts, hallowed, hflat⟩ := runIntradayCycle_submitted ho
    · exact route_disjoint hswing (scalpUniverse_symbol hbars)
    · obtain ⟨p, hp, hsymbol, havg⟩ := countsHeld_portfolio.mp hflat.held
      exact h
        { scalpRuns := hscalp
          sessionOpen := hflat.sessionOpen
          orderable := orderGate_iff.mp hallowed
          flattens := hflat.flattenClose
          notHalted := hhalts
          rowsFound := rowsFound_portfolio.mp hflat.rowsFound
          swingHeld := ⟨p, hp, hsymbol ▸ hswing, havg⟩ }

/-- The flatten sells a swing holding. -/
theorem FlattensSwingHolding.sells (h : FlattensSwingHolding i w) :
    ∃ o ∈ (runMultiStrategyTick i w).scalpSubmitted,
      o.symbol ∈ i.route.swingSymbols ∧ o.side = .sell := by
  obtain ⟨p, hp, hswing, havg⟩ := h.swingHeld
  have hflat : Flattens (scalpInput (i.scalpCycle w.world.broker) (betweenLegs i w).world)
      p.symbol :=
    { sessionOpen := h.sessionOpen
      flattenClose := h.flattens
      rowsFound := rowsFound_portfolio.mpr h.rowsFound
      held := countsHeld_portfolio.mpr ⟨p, hp, rfl, havg⟩ }
  have hallowed : (i.scalpCycle w.world.broker).session.orderAllowed = true :=
    orderGate_iff.mpr h.orderable
  obtain ⟨o, ho, hsymbol, hside⟩ :=
    runIntradayCycle_flatten h.notHalted hallowed hflat (route_swing_stripped hswing)
  refine ⟨o, ?_, hsymbol ▸ hswing, hside⟩
  unfold runMultiStrategyTick
  rw [if_neg h.scalpRuns]
  exact ho

/-- The legs of a tick are isolated exactly when the scalp leg does not flatten while the
account holds a symbol of the swing leg. -/
theorem legsIsolated_iff (i : MultiInput) (w : IntradayWorld) :
    LegsIsolated i w ↔ ¬FlattensSwingHolding i w := by
  apply Iff.intro
  · intro h hflat
    obtain ⟨o, ho, hswing, -⟩ := hflat.sells
    exact h.1 o ho hswing
  · intro h
    exact ⟨fun o ho => scalpSubmitted_isolated h ho, fun o ho => swingSubmitted_isolated ho⟩

/-- Ten shares of a swing symbol, bought by no scalp. -/
def swingHolder : IntradayWorld where
  world :=
    { day := 20089
      broker := .kis
        { book :=
            { positions := [⟨⟨"005930", 10, 70000⟩, 20080, 0⟩]
              distinct := by decide
              positive := by decide } } }

/-- Twenty past three on Thursday, 2 January 2025, in Korea. -/
def beforeTheClose : Instant := 1735798800000000

/-- A tick with one symbol for each leg and no chart from KIS. -/
def lateTick : MultiInput where
  config := { paperTradingSymbols := "005930", paperIntradaySymbols := "000660" }
  swing := swingRelaxedV2 (fun _ => 0) {} "20250102" (some none)
  scalp := ScalpMomentum.scalpMomentumV1 fun _ => 0
  stateAt := beforeTheClose
  fetchAt := beforeTheClose
  orderAt := beforeTheClose
  flattenAt := beforeTheClose
  swingDesk :=
    { priceUniverse := []
      kospi := []
      sp500 := []
      generateOrders := fun _ => []
      answers := fun _ => .answered ⟨[], .absent, .absent, .absent⟩ }
  scalpDesk :=
    { universeTf := []
      kospi := []
      sp500 := []
      rules := ScalpMomentum.scalpMomentumV1 fun _ => 0
      session := ⟨.closed, false, false, "", ""⟩
      answers := fun _ => .answered ⟨[], .absent, .absent, .absent⟩ }

/-- The scalp leg sells the ten shares of the swing leg. -/
theorem lateTick_sells_swing : ¬LegsIsolated lateTick swingHolder ∧
    (runMultiStrategyTick lateTick swingHolder).scalpSubmitted.map
      (fun o => (o.symbol, o.side, o.quantity, o.signalReason)) =
        [("005930", .sell, 10, some forcedFlattenReason)] := by
  have hsold : (runMultiStrategyTick lateTick swingHolder).scalpSubmitted.map
      (fun o => (o.symbol, o.side, o.quantity, o.signalReason)) =
        [("005930", .sell, 10, some forcedFlattenReason)] := by
    decide +kernel
  refine ⟨fun h => ?_, hsold⟩
  obtain ⟨o, hone, hfields⟩ := List.map_eq_singleton_iff.mp hsold
  have hrouted : "005930" ∈ lateTick.route.swingSymbols := by
    decide
  have hsymbol : o.symbol = "005930" := congrArg Prod.fst hfields
  have hsent : o ∈ (runMultiStrategyTick lateTick swingHolder).scalpSubmitted := by
    rw [hone]
    exact List.mem_singleton_self o
  exact h.1 o hsent (hsymbol ▸ hrouted)

end StockQuant.MultiStrategyTick
