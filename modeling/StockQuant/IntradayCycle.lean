import StockQuant.DailyCycle
import StockQuant.ScalpStrategy

namespace StockQuant.IntradayCycle

open StockQuant Clock OrderModels RiskRules Strategy MarketRegime Brokers DailyCycle KisParsers
open IntradaySession IntradayState IntradayIndicators ScalpStrategy

/-- Everything one call of `run_intraday_cycle` is given or meets. -/
structure IntradayInput where
  universeTf : List Bar
  kospi : List IndexRow
  sp500 : List IndexRow
  rules : ScalpRules
  config : IntradayConfig := {}
  sessionConfig : KrxSessionConfig := {}
  regimeConfig : MarketRegimeConfig := {}
  session : IntradaySessionSnapshot
  quoteBySymbol : String → Option Payload := fun _ => none
  sizing : Sizing := {}
  riskLimits : RiskLimits := {}
  manualOverrideEnabled : Bool := false
  flattenAt : Instant := 0
  strategyNow : Instant := 0
  loadNow : Instant := 0
  saveNow : Instant := 0
  trackerNow : Nat → Instant := fun _ => 0
  guardNow : Instant := 0
  readings : Nat → Readings × Readings := fun _ => (⟨0, 0⟩, ⟨0, 0⟩)
  gateNow : Nat → ClockReading := fun _ => ⟨0, 0⟩
  acceptedNow : Nat → ClockReading := fun _ => ⟨0, 0⟩
  kisEquity : Nat → AccountEquity := fun _ => ⟨0, none, 0, 0⟩
  answers : Nat → KisPaperBroker.ClientAnswer

/-- The intraday jobs take their risk snapshots and process their orders as the daily ones
do, over the minute bars. -/
def IntradayInput.desk (c : IntradayInput) : CycleInput where
  priceUniverse := c.universeTf
  kospi := c.kospi
  sp500 := c.sp500
  generateOrders _ := []
  riskLimits := c.riskLimits
  killSwitch := true
  manualOverrideEnabled := c.manualOverrideEnabled
  tracked := true
  trackerNow := c.trackerNow
  guardNow := c.guardNow
  readings := c.readings
  kisEquity := c.kisEquity
  answers := c.answers

def portfolioDfFromBroker (broker : Broker) : List PortfolioRow :=
  broker.getPositions.map fun p =>
    { symbol := p.symbol, quantity := p.quantity, averagePrice := p.averagePrice,
      holdDays := some 0 }

/-- Whether the loss of the day stops new entries. -/
def riskHalt (c : IntradayInput) (snapshot : RiskSnapshot) : Bool :=
  !c.manualOverrideEnabled && snapshot.equityDataOk &&
    decide (snapshot.dailyPnlPct ≤ -c.config.maxDailyLossPct)

def scalpInput (c : IntradayInput) (w : World) : ScalpInput where
  context :=
    { prices := c.universeTf
      kospiIndex := c.kospi
      sp500Index := c.sp500
      portfolio := portfolioDfFromBroker w.broker
      volatilityIndex := buildMockVolatilitySeries w.day c.kospi }
  session := c.session.state
  flattenClose :=
    shouldForceFlattenBeforeClose c.sessionConfig c.config.flattenBeforeCloseMinutes c.flattenAt
  now := c.strategyNow
  config := c.config
  regimeConfig := c.regimeConfig
  quoteBySymbol := c.quoteBySymbol
  riskHaltNewEntries := riskHalt c (buildRiskSnapshot c.desk 0 w.broker w.tracker).1
  sizing := c.sizing

/-- The orders that pass the buy gate; it is asked for buys only. -/
def gatedOrders (c : IntradayInput) (state : IntradayPaperState) (orders : List OrderRequest) :
    List OrderRequest :=
  (orders.zipIdx.filter fun (order, k) =>
    order.side = .sell || (intradayBuyGate c.config state (c.gateNow k) order.symbol).isNone).map
    Prod.fst

structure IntradayLoop where
  loop : OrderLoop
  state : IntradayPaperState

def processIntradayOrder (c : IntradayInput) (day : Int) (s : IntradayLoop)
    (order : OrderRequest) : IntradayLoop :=
  let loop := processOrder c.desk day s.loop order
  { loop := loop
    state :=
      if s.loop.accepted < loop.accepted then
        onAcceptedOrder c.config (c.acceptedNow loop.count) order s.state
      else s.state }

/-- How a call of `run_intraday_cycle` ended. -/
inductive IntradayEnd
  | halted
  | raised
  | reported
  deriving DecidableEq, Repr

structure IntradayReport where
  ended : IntradayEnd
  generated : List OrderRequest := []
  filtered : List OrderRequest := []
  submitted : List OrderRequest := []
  blockedSession : Nat := 0
  accepted : Nat := 0
  rejected : Nat := 0

/-- The account between two intraday cycles, and the file of the intraday state. -/
structure IntradayWorld where
  world : World
  file : Option IntradayPaperState := none

def runIntradayCycle (c : IntradayInput) (w : IntradayWorld) : IntradayWorld × IntradayReport :=
  let loaded := load c.loadNow w.file
  let tracker := (buildRiskSnapshot c.desk 0 w.world.broker w.world.tracker).2
  let stopped : IntradayWorld := { w with world := { w.world with tracker := tracker } }
  if halts c.desk w.world then (stopped, { ended := .halted })
  else
    match generateSignals c.rules (scalpInput c w.world) loaded with
    | none => (stopped, { ended := .raised })
    | some out =>
      let generated := out.signals.map StrategySignal.toOrder
      let filtered := gatedOrders c out.state generated
      let sent := if c.session.orderAllowed then filtered else []
      let final := sent.foldl (processIntradayOrder c w.world.day)
        { loop := { broker := w.world.broker, tracker := tracker }, state := out.state }
      ({ world := { w.world with broker := final.loop.broker, tracker := final.loop.tracker }
         file := save c.saveNow final.state },
        { ended := .reported
          generated := generated
          filtered := filtered
          submitted := final.loop.submitted
          blockedSession := filtered.length - sent.length
          accepted := final.loop.accepted
          rejected := (generated.length - filtered.length) + final.loop.rejected })

theorem mem_gatedOrders {c : IntradayInput} {state : IntradayPaperState}
    {orders : List OrderRequest} {o : OrderRequest} (h : o ∈ gatedOrders c state orders) :
    o ∈ orders := by
  obtain ⟨⟨o, k⟩, hk, rfl⟩ := List.mem_map.mp h
  exact List.fst_mem_of_mem_zipIdx (List.mem_of_mem_filter hk)

/-- The buy gate lets every sell pass. -/
theorem sell_mem_gatedOrders {c : IntradayInput} {state : IntradayPaperState}
    {orders : List OrderRequest} {o : OrderRequest} (h : o ∈ orders) (hside : o.side = .sell) :
    o ∈ gatedOrders c state orders := by
  obtain ⟨k, hk, rfl⟩ := List.mem_iff_getElem.mp h
  apply List.mem_map.mpr
  refine ⟨(orders[k], k), List.mem_filter.mpr ⟨?_, ?_⟩, rfl⟩
  · exact List.mem_zipIdx_iff_getElem?.mpr (List.getElem?_eq_getElem hk)
  · simp [hside]

/-- The loop sends what the loop of the daily cycle would send. -/
theorem foldl_processIntradayOrder {c : IntradayInput} {day : Int} (orders : List OrderRequest)
    (s : IntradayLoop) : (orders.foldl (processIntradayOrder c day) s).loop =
      orders.foldl (processOrder c.desk day) s.loop := by
  induction orders generalizing s with
  | nil => rfl
  | cons order orders ih => exact ih _

variable {c : IntradayInput} {w : IntradayWorld}

theorem portfolio_symbols (broker : Broker) :
    (portfolioDfFromBroker broker).map PortfolioRow.symbol =
      broker.book.positions.map TrackedPosition.symbol := by
  simp only [portfolioDfFromBroker, Broker.getPositions, Book.views, List.map_map]
  rfl

theorem rowsFound_portfolio {broker : Broker} : RowsFound (portfolioDfFromBroker broker) ↔
    ∀ p ∈ broker.getPositions, ∃ q ∈ broker.getPositions, q.symbol = Text.strip p.symbol := by
  apply Iff.intro
  · intro h p hp
    obtain ⟨found, hfound, heq⟩ := h _ (List.mem_map_of_mem hp)
    obtain ⟨q, hq, rfl⟩ := List.mem_map.mp hfound
    exact ⟨q, hq, heq⟩
  · intro h row hrow
    obtain ⟨p, hp, rfl⟩ := List.mem_map.mp hrow
    obtain ⟨q, hq, heq⟩ := h p hp
    exact ⟨_, List.mem_map_of_mem hq, heq⟩

/-- A holding counts for the exits when it has an average price: none is empty. -/
theorem countsHeld_portfolio {broker : Broker} {symbol : String} :
    (∃ row ∈ portfolioDfFromBroker broker, countsHeld row ∧ row.symbol = symbol) ↔
      ∃ p ∈ broker.getPositions, p.symbol = symbol ∧ 0 < p.averagePrice := by
  apply Iff.intro
  · rintro ⟨row, hrow, hheld, rfl⟩
    obtain ⟨p, hp, rfl⟩ := List.mem_map.mp hrow
    exact ⟨p, hp, rfl, of_decide_eq_true (Bool.and_eq_true_iff.mp hheld).2⟩
  · rintro ⟨p, hp, rfl, havg⟩
    obtain ⟨tracked, htracked, rfl⟩ := List.mem_map.mp hp
    have hquantity := broker.book.positive tracked htracked
    refine ⟨_, List.mem_map_of_mem hp, Bool.and_eq_true_iff.mpr ⟨?_, ?_⟩, rfl⟩
    · exact decide_eq_true hquantity
    · exact decide_eq_true havg

/-- An order of the cycle is for a symbol of its universe or closes a holding before the
close of the market. -/
theorem runIntradayCycle_submitted {o : OrderRequest}
    (h : o ∈ (runIntradayCycle c w).2.submitted) :
    o.symbol ∈ c.universeTf.map Bar.symbol ∨ halts c.desk w.world = false ∧
      c.session.orderAllowed = true ∧ Flattens (scalpInput c w.world) o.symbol := by
  unfold runIntradayCycle at h
  dsimp only at h
  split at h
  · cases h
  · case isFalse hhalts =>
    split at h
    · cases h
    · case _ out hout =>
      dsimp only at h
      rw [foldl_processIntradayOrder] at h
      obtain hnone | hsent := foldl_submitted_cases _ h
      · cases hnone
      · split at hsent
        · case isTrue hallowed =>
          obtain ⟨s, hs, rfl⟩ := List.mem_map.mp (mem_gatedOrders hsent)
          obtain hbars | hflat := generateSignals_symbol hout hs
          · exact .inl hbars
          · exact .inr ⟨eq_false_of_ne_true hhalts, hallowed, hflat⟩
        · cases hsent

/-- Inside the flatten window the cycle sells every holding, of whatever strategy. -/
theorem runIntradayCycle_flatten {symbol : String} (hhalts : halts c.desk w.world = false)
    (hallowed : c.session.orderAllowed = true) (hflat : Flattens (scalpInput c w.world) symbol)
    (hstrip : Text.strip symbol = symbol) :
    ∃ o ∈ (runIntradayCycle c w).2.submitted, o.symbol = symbol ∧ o.side = .sell := by
  obtain ⟨hopen, hclose, hfound, row, hrow, hheld, rfl⟩ := hflat
  have hnodup : ((scalpInput c w.world).context.portfolio.map PortfolioRow.symbol).Nodup := by
    change ((portfolioDfFromBroker w.world.broker).map PortfolioRow.symbol).Nodup
    rw [portfolio_symbols]
    exact w.world.broker.book.distinct
  have hsells : ∃ out,
      generateSignals c.rules (scalpInput c w.world) (load c.loadNow w.file) = some out ∧
        flattenSignal c.rules (scalpInput c w.world) row ∈ out.signals :=
    generateSignals_flatten hopen hclose hfound hnodup hrow hheld hstrip
  obtain ⟨out, hout, hsell⟩ := hsells
  refine ⟨(flattenSignal c.rules (scalpInput c w.world) row).toOrder, ?_, rfl, rfl⟩
  unfold runIntradayCycle
  simp only [hhalts, Bool.false_eq_true, if_false, hout, hallowed, if_true]
  rw [foldl_processIntradayOrder]
  have hgenerated := List.mem_map_of_mem (f := StrategySignal.toOrder) hsell
  exact foldl_submits_sell (sell_mem_gatedOrders hgenerated rfl) rfl _

end StockQuant.IntradayCycle
