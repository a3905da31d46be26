import StockQuant.Brokers
import StockQuant.EquityTracker
import StockQuant.MarketRegime
import StockQuant.SwingRelaxedV2

namespace StockQuant.DailyCycle

open StockQuant Frame Clock OrderModels RiskRules Strategy Brokers EquityTracker

/-- What `get_account_equity_snapshot` tells the risk snapshot. -/
structure AccountEquity where
  orderableCash : ℚ
  cashTotal : Option ℚ
  reservedCashOpenBuys : ℚ
  openBuyOrderMissingPriceCount : Int

def paperEquity (b : PaperBroker) : AccountEquity := ⟨b.cash, some b.cash, 0, 0⟩

/-- Everything one call of `run_daily_cycle` is given or meets: its frames, the strategy,
the risk setup, the clock at each reading and the answers of KIS. -/
structure CycleInput where
  priceUniverse : List Bar
  kospi : List IndexRow
  sp500 : List IndexRow
  generateOrders : StrategyContext → List OrderRequest
  riskLimits : RiskLimits := {}
  killSwitch : Bool := false
  manualOverrideEnabled : Bool := false
  tracked : Bool := false
  trackerNow : Nat → Instant := fun _ => 0
  guardNow : Instant := 0
  readings : Nat → Readings × Readings := fun _ => (⟨0, 0⟩, ⟨0, 0⟩)
  kisEquity : Nat → AccountEquity := fun _ => ⟨0, none, 0, 0⟩
  answers : Nat → KisPaperBroker.ClientAnswer
  priceProvider : String → ℚ := fun _ => 50000

/-- The account, the day and the file of the equity tracker between two cycles. -/
structure World where
  day : Int
  broker : Broker
  tracker : Option EquityTrackerState := none

def firstTakeProfitReasons : List String :=
  ["First TP partial exit", "Bear first TP partial exit", SwingRelaxedV2.tp1Reason]

/-- Whether an order is the first take-profit sell of a partial exit. -/
def isFirstTakeProfit (order : OrderRequest) : Bool :=
  order.side = .sell && order.signalReason.any (· ∈ firstTakeProfitReasons)

def buildMockVolatilitySeries (day : Int) (kospi : List IndexRow) : List IndexRow :=
  if kospi = [] then
    (List.range 20).map fun i => ⟨day - (20 - i), 18 + i * (5 / 100)⟩
  else (kospi.insertionSort fun a b => a.date ≤ b.date).map fun row => ⟨row.date, 18⟩

def portfolioDfFromBroker (broker : Broker) : List PortfolioRow :=
  broker.getPositions.map fun p =>
    { symbol := p.symbol, quantity := p.quantity, averagePrice := p.averagePrice,
      holdDays := some 1 }

def latestCloseSafe (prices : List Bar) (positions : List PositionView) (symbol : String) : ℚ :=
  match (sortByDate (prices.filter fun b => b.symbol = symbol)).getLast? with
  | some row => row.close
  | none =>
    match positions.find? fun p => p.symbol = symbol with
    | some p => if p.averagePrice = 0 then 1 else p.averagePrice
    | none => 1

/-- `_build_risk_snapshot` with the `k`-th equity answer, and the tracker file it leaves. -/
def buildRiskSnapshot (c : CycleInput) (k : Nat) (broker : Broker)
    (tracker : Option EquityTrackerState) : RiskSnapshot × Option EquityTrackerState :=
  let eq : AccountEquity :=
    match broker with
    | .paper b => paperEquity b
    | .kis _ => c.kisEquity k
  let cashForEquity :=
    (eq.cashTotal.filter (0 < ·)).getD (eq.orderableCash + eq.reservedCashOpenBuys)
  let positions := broker.getPositions
  let positionValues := positions.map fun p =>
    (p.symbol, latestCloseSafe c.priceUniverse positions p.symbol * p.quantity)
  let equity := cashForEquity + (positionValues.map Prod.snd).sum
  let equityDataOk : Bool :=
    eq.cashTotal.isSome || decide (eq.openBuyOrderMissingPriceCount = (0 : Int))
  let (pnl, tracker') :=
    if c.tracked then pnlSnapshot tracker (c.trackerNow k) equity equityDataOk
    else (⟨0, 0⟩, tracker)
  ({ dailyPnlPct := pnl.dailyPct
     totalPnlPct := pnl.totalPct
     equity := if 0 < equity then equity else 1
     marketFilterOk := true
     positionValues := positionValues
     equityDataOk := equityDataOk }, tracker')

/-- `KillSwitch.evaluate`: only the total loss limit stops a whole cycle. -/
def killSwitchHalts (limits : RiskLimits) (snapshot : RiskSnapshot) (now : Instant) : Bool :=
  let decision := evaluateGlobalGuard limits snapshot now
  !decision.approved && decision.reasonCode = .systemOffTotalLoss

def placeOrder (c : CycleInput) (k : Nat) (day : Int) (broker : Broker)
    (order : OrderRequest) (firstTakeProfit : Bool) : Broker × OrderResult :=
  match broker with
  | .paper b =>
    let (b', result) := b.placeOrder c.priceProvider day order firstTakeProfit
    (.paper b', result)
  | .kis a =>
    let (a', result) := a.placeOrder order firstTakeProfit (c.answers k)
    (.kis a', result)

/-- The order loop of a cycle; `submitted` lists what reached `broker.place_order`. -/
structure OrderLoop where
  broker : Broker
  tracker : Option EquityTrackerState
  submitted : List OrderRequest := []
  accepted : Nat := 0
  rejected : Nat := 0
  count : Nat := 0

/-- The order the order manager makes of a strategy order: an order without a price gets the
latest close. -/
def managedOrder (c : CycleInput) (broker : Broker) (order : OrderRequest) : OrderRequest :=
  let price := (order.price.filter (· ≠ 0)).getD
    (latestCloseSafe c.priceUniverse broker.getPositions order.symbol)
  createOrderFromSignal
    { symbol := order.symbol
      side := order.side
      quantity := order.quantity
      limitPrice := some price
      stopLossPct := order.stopLossPct
      strategyId := order.strategyId }

/-- One turn of the loop: a fresh risk snapshot, both risk checks of the order manager and,
when they approve, the broker. -/
def processOrder (c : CycleInput) (day : Int) (s : OrderLoop) (order : OrderRequest) : OrderLoop :=
  let k := s.count + 1
  let (snapshot, tracker) := buildRiskSnapshot c k s.broker s.tracker
  let managed := managedOrder c s.broker order
  let approved := (approveOrder c.riskLimits managed snapshot (c.readings k).1).approved &&
    (approveOrder c.riskLimits managed snapshot (c.readings k).2).approved
  if approved then
    let (broker, result) :=
      placeOrder c k day s.broker managed (isFirstTakeProfit order)
    { broker := broker
      tracker := tracker
      submitted := s.submitted ++ [order]
      accepted := s.accepted + result.accepted.toNat
      rejected := s.rejected + (!result.accepted).toNat
      count := k }
  else { s with tracker := tracker, rejected := s.rejected + 1, count := k }

structure CycleReport where
  halted : Bool
  context : Option StrategyContext
  generated : List OrderRequest
  submitted : List OrderRequest
  accepted : Nat
  rejected : Nat

def haltedReport : CycleReport := ⟨true, none, [], [], 0, 0⟩

def strategyContext (c : CycleInput) (w : World) : StrategyContext where
  prices := c.priceUniverse
  kospiIndex := c.kospi
  sp500Index := c.sp500
  portfolio := portfolioDfFromBroker w.broker
  volatilityIndex := buildMockVolatilitySeries w.day c.kospi

/-- Whether the kill switch stops the cycle before the strategy is asked. -/
def halts (c : CycleInput) (w : World) : Bool :=
  let (snapshot, _) := buildRiskSnapshot c 0 w.broker w.tracker
  !c.manualOverrideEnabled && c.killSwitch && killSwitchHalts c.riskLimits snapshot c.guardNow

/-- Whether the cycle asks the strategy. -/
def asksStrategy (c : CycleInput) (w : World) : Bool :=
  decide (c.priceUniverse ≠ [] ∧ halts c w = false)

def orderLoop (c : CycleInput) (w : World) : OrderLoop :=
  let (_, tracker) := buildRiskSnapshot c 0 w.broker w.tracker
  (c.generateOrders (strategyContext c w)).foldl (processOrder c w.day)
    { broker := w.broker, tracker := tracker }

def runDailyCycle (c : CycleInput) (w : World) : World × CycleReport :=
  if c.priceUniverse = [] then (w, haltedReport)
  else if halts c w then
    ({ w with tracker := (buildRiskSnapshot c 0 w.broker w.tracker).2 }, haltedReport)
  else
    let context := strategyContext c w
    let out := orderLoop c w
    ({ w with broker := out.broker, tracker := out.tracker },
      { halted := false
        context := some context
        generated := c.generateOrders context
        submitted := out.submitted
        accepted := out.accepted
        rejected := out.rejected })

theorem managedOrder_side (c : CycleInput) (broker : Broker) (order : OrderRequest) :
    (managedOrder c broker order).side = order.side := rfl

/-- A turn of the loop leaves the account as it was, or places the order once. -/
theorem processOrder_cases (c : CycleInput) (day : Int) (s : OrderLoop) (order : OrderRequest) :
    ((processOrder c day s order).broker = s.broker ∧
      (processOrder c day s order).accepted = s.accepted) ∨
    ∃ managed, managed.symbol = order.symbol ∧ managed.side = order.side ∧
      (processOrder c day s order).broker =
        (placeOrder c (s.count + 1) day s.broker managed (isFirstTakeProfit order)).1 ∧
      (processOrder c day s order).accepted = s.accepted +
        (placeOrder c (s.count + 1) day s.broker managed (isFirstTakeProfit order)).2.accepted.toNat
        := by
  unfold processOrder
  dsimp only
  split
  · exact .inr ⟨managedOrder c s.broker order, rfl, rfl, rfl, rfl⟩
  · exact .inl ⟨rfl, rfl⟩

theorem placeOrder_salesAtMost {c : CycleInput} {k : Nat} {day : Int} {broker : Broker}
    {order : OrderRequest} {firstTakeProfit : Bool} {symbol : String} {n : Nat}
    (h : broker.SalesAtMost symbol n) :
    (placeOrder c k day broker order firstTakeProfit).1.SalesAtMost symbol
      (n + if symbol = order.symbol ∧ firstTakeProfit then 1 else 0) := by
  cases broker with
  | paper b => exact PaperBroker.placeOrder_salesAtMost h
  | kis a => exact KisAccount.placeOrder_salesAtMost h

/-- The first take-profit orders for one symbol. -/
def takeProfitsOf (symbol : String) (orders : List OrderRequest) : Nat :=
  orders.countP fun o => symbol = o.symbol && isFirstTakeProfit o

theorem processOrder_salesAtMost {c : CycleInput} {day : Int} {s : OrderLoop}
    (order : OrderRequest) {symbol : String} {n : Nat} (h : s.broker.SalesAtMost symbol n) :
    (processOrder c day s order).broker.SalesAtMost symbol
      (n + if symbol = order.symbol ∧ isFirstTakeProfit order then 1 else 0) := by
  unfold processOrder
  dsimp only
  split
  · exact placeOrder_salesAtMost h
  · exact h.mono (Nat.le_add_right _ _)

/-- A loop over orders adds no more first take-profit sells than the orders ask for. -/
theorem foldl_salesAtMost {c : CycleInput} {day : Int} (orders : List OrderRequest)
    {s : OrderLoop} {symbol : String} {n : Nat} (h : s.broker.SalesAtMost symbol n) :
    (orders.foldl (processOrder c day) s).broker.SalesAtMost symbol
      (n + takeProfitsOf symbol orders) := by
  induction orders generalizing s n with
  | nil => exact h
  | cons order orders ih =>
    apply (ih (processOrder_salesAtMost order h)).mono
    rw [takeProfitsOf, takeProfitsOf, List.countP_cons]
    simp only [Bool.and_eq_true, decide_eq_true_eq]
    omega

theorem processOrder_submitted {c : CycleInput} {day : Int} {s : OrderLoop}
    {order o : OrderRequest} (h : o ∈ s.submitted) :
    o ∈ (processOrder c day s order).submitted := by
  unfold processOrder
  dsimp only
  split
  · exact List.mem_append_left _ h
  · exact h

/-- The risk rules approve every sell, so the loop submits it. -/
theorem processOrder_submits_sell {c : CycleInput} {day : Int} {s : OrderLoop}
    {order : OrderRequest} (h : order.side = .sell) :
    order ∈ (processOrder c day s order).submitted := by
  have hside := (managedOrder_side c s.broker order).trans h
  unfold processOrder
  dsimp only
  rw [approveOrder_sell _ _ hside, approveOrder_sell _ _ hside, Bool.and_self, if_pos rfl]
  exact List.mem_append_right _ List.mem_cons_self

theorem foldl_submitted {c : CycleInput} {day : Int} (orders : List OrderRequest) {s : OrderLoop}
    {o : OrderRequest} (h : o ∈ s.submitted) :
    o ∈ (orders.foldl (processOrder c day) s).submitted := by
  induction orders generalizing s with
  | nil => exact h
  | cons order orders ih => exact ih (processOrder_submitted h)

theorem foldl_submits_sell {c : CycleInput} {day : Int} {orders : List OrderRequest}
    {order : OrderRequest} (hmem : order ∈ orders) (hside : order.side = .sell) (s : OrderLoop) :
    order ∈ (orders.foldl (processOrder c day) s).submitted := by
  induction orders generalizing s with
  | nil => cases hmem
  | cons first orders ih =>
    cases hmem with
    | head => exact foldl_submitted orders (processOrder_submits_sell hside)
    | tail _ hmem => exact ih hmem _

theorem processOrder_submitted_cases {c : CycleInput} {day : Int} {s : OrderLoop}
    {order o : OrderRequest} (h : o ∈ (processOrder c day s order).submitted) :
    o ∈ s.submitted ∨ o = order := by
  unfold processOrder at h
  dsimp only at h
  split at h
  · exact (List.mem_append.mp h).imp_right List.mem_singleton.mp
  · exact .inl h

/-- The loop submits nothing but the orders it was given. -/
theorem foldl_submitted_cases {c : CycleInput} {day : Int} (orders : List OrderRequest)
    {s : OrderLoop} {o : OrderRequest}
    (h : o ∈ (orders.foldl (processOrder c day) s).submitted) : o ∈ s.submitted ∨ o ∈ orders := by
  induction orders generalizing s with
  | nil => exact .inl h
  | cons order orders ih =>
    obtain hstep | hrest := ih h
    · obtain hold | rfl := processOrder_submitted_cases hstep
      · exact .inl hold
      · exact .inr List.mem_cons_self
    · exact .inr (List.mem_cons_of_mem _ hrest)

/-- A cycle that asks its strategy hands it the context and runs the order loop. -/
theorem runDailyCycle_asks {c : CycleInput} {w : World} (h : asksStrategy c w) :
    (runDailyCycle c w).1.broker = (orderLoop c w).broker ∧
      (runDailyCycle c w).2.context = some (strategyContext c w) ∧
      (runDailyCycle c w).2.submitted = (orderLoop c w).submitted := by
  obtain ⟨hne, hhalts⟩ := of_decide_eq_true h
  unfold runDailyCycle
  rw [if_neg hne, hhalts]
  exact ⟨rfl, rfl, rfl⟩

/-- A cycle that does not ask its strategy leaves the account alone. -/
theorem runDailyCycle_halted {c : CycleInput} {w : World} (h : ¬asksStrategy c w) :
    (runDailyCycle c w).1.broker = w.broker ∧ (runDailyCycle c w).2.context = none := by
  unfold runDailyCycle
  split
  · exact ⟨rfl, rfl⟩
  · case isFalse hne =>
    have hhalts : halts c w = true := by
      by_contra hno
      exact h (decide_eq_true ⟨hne, eq_false_of_ne_true hno⟩)
    rw [if_pos hhalts]
    exact ⟨rfl, rfl⟩

/-- A cycle submits only orders its strategy generated. -/
theorem runDailyCycle_submitted {c : CycleInput} {w : World} {o : OrderRequest}
    (h : o ∈ (runDailyCycle c w).2.submitted) :
    o ∈ c.generateOrders (strategyContext c w) := by
  unfold runDailyCycle at h
  split at h
  · cases h
  · split at h
    · cases h
    · obtain hnone | hgenerated := foldl_submitted_cases _ h
      · cases hnone
      · exact hgenerated

end StockQuant.DailyCycle
