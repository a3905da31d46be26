import StockQuant.BuyApproval
import StockQuant.IntradayCycle
import StockQuant.Machine

namespace StockQuant.RegimeEnforcement

open StockQuant Machine OrderModels RiskRules Strategy MarketRegime Brokers DailyCycle BuyApproval
open IntradayState IntradayCycle ScalpStrategy

/-- One turn of an order loop: the loop before it and the strategy's order. -/
abbrev Turn := OrderLoop × OrderRequest

/-- The turns of a loop over the orders of a strategy. -/
def turns (c : CycleInput) (day : Int) (s : OrderLoop) (orders : List OrderRequest) : List Turn :=
  visits (processOrder c day) s orders

/-- The account as the risk rules are shown it at a turn. -/
def snapshotAt (c : CycleInput) (v : Turn) : RiskSnapshot :=
  (buildRiskSnapshot c (v.1.count + 1) v.1.broker v.1.tracker).1

def orderAt (c : CycleInput) (v : Turn) : OrderRequest := managedOrder c v.1.broker v.2

def acceptedBuy (c : CycleInput) (day : Int) (v : Turn) : Bool :=
  decide (v.2.side = .buy) && decide (v.1.accepted < (processOrder c day v.1 v.2).accepted)

/-- The limits of a bearish regime on a buy, after `entries` new entries that day. -/
structure WithinBearish (limits : RiskLimits) (order : OrderRequest) (snapshot : RiskSnapshot)
    (entries : Int) : Prop where
  holdings_le : ∀ price, order.price = some price →
    ((holdingsAfter order snapshot price).length : Int) ≤
      min limits.maxPositions limits.bearishMaxPositions
  weight_le : ∀ price, order.price = some price →
    weightAfter order snapshot price ≤
      min limits.maxPositionWeight limits.bearishMaxPositionWeight *
        (buildAdaptiveGuard limits snapshot).positionWeightMultiplier
  stop_le : ∃ stop, order.stopLossPct = some stop ∧ 0 < stop ∧
    stop ≤ limits.bearishMaxStopLossPct *
      (buildAdaptiveGuard limits snapshot).stopLossTightenMultiplier
  entries_lt : entries < limits.bearishMaxNewEntriesPerDay

/-- In a loop over the orders of a strategy, with `earlier` entries made that day before it, no
buy is accepted under high volatility, and in a bearish regime none outside its limits. -/
def Enforced (c : CycleInput) (day : Int) (regime : MarketRegime) (earlier : Int) (s : OrderLoop)
    (orders : List OrderRequest) : Prop :=
  ∀ before v after, turns c day s orders = before ++ v :: after → acceptedBuy c day v = true →
    regime ≠ .highVolatilityRisk ∧ (regime = .bearishTrend →
      WithinBearish c.riskLimits (orderAt c v) (snapshotAt c v)
        (earlier + before.countP (acceptedBuy c day)))

/-- The buy at a turn is turned down whatever the regime: by `approve_order` on the snapshot as
it is built, or by the broker. -/
def refused (c : CycleInput) (day : Int) (v : Turn) : Bool :=
  !((approveOrder c.riskLimits (orderAt c v) (snapshotAt c v) (c.readings (v.1.count + 1)).1).approved &&
    (approveOrder c.riskLimits (orderAt c v) (snapshotAt c v) (c.readings (v.1.count + 1)).2).approved &&
    (placeOrder c (v.1.count + 1) day v.1.broker (orderAt c v)
      (isFirstTakeProfit v.2)).2.accepted)

def isBuy (v : Turn) : Bool := decide (v.2.side = .buy)

/-- Under high volatility every buy is refused on other grounds, and in a bearish regime every
buy that is not keeps to the limits by itself. -/
def Harmless (c : CycleInput) (day : Int) (regime : MarketRegime) (earlier : Int) (s : OrderLoop)
    (orders : List OrderRequest) : Prop :=
  match regime with
  | .bullishTrend | .sideways => True
  | .highVolatilityRisk => ∀ v ∈ turns c day s orders, isBuy v = true → refused c day v = true
  | .bearishTrend => ∀ before v after, turns c day s orders = before ++ v :: after →
      isBuy v = true → refused c day v = true ∨
        WithinBearish c.riskLimits (orderAt c v) (snapshotAt c v)
          (earlier + before.countP fun u => isBuy u && !refused c day u)

/-- `run_daily_cycle` with any strategy: its regime is computed from the frames it is given. -/
def DailyEnforced (config : MarketRegimeConfig) (earlier : Int) (c : CycleInput) (w : World) : Prop :=
  asksStrategy c w = true →
    Enforced c w.day (regimeOf (strategyContext c w) config) earlier
      { broker := w.broker, tracker := (buildRiskSnapshot c 0 w.broker w.tracker).2 }
      (c.generateOrders (strategyContext c w))

def DailyHarmless (config : MarketRegimeConfig) (earlier : Int) (c : CycleInput) (w : World) : Prop :=
  asksStrategy c w = true →
    Harmless c w.day (regimeOf (strategyContext c w) config) earlier
      { broker := w.broker, tracker := (buildRiskSnapshot c 0 w.broker w.tracker).2 }
      (c.generateOrders (strategyContext c w))

/-- What a strategy makes of the intraday context and state; `none` is an exception. -/
abbrev IntradayStrategy :=
  StrategyContext → IntradayPaperState → Option (List OrderRequest × IntradayPaperState)

/-- The orders of the strategy that reach the order loop. -/
def sentOrders (c : IntradayInput) (state : IntradayPaperState) (orders : List OrderRequest) :
    List OrderRequest :=
  if c.session.orderAllowed then gatedOrders c state orders else []

/-- `run_intraday_cycle` with any strategy. -/
def intradayCycle (strategy : IntradayStrategy) (c : IntradayInput) (w : IntradayWorld) :
    IntradayWorld × IntradayReport :=
  let loaded := load c.loadNow w.file
  let tracker := (buildRiskSnapshot c.desk 0 w.world.broker w.world.tracker).2
  let stopped : IntradayWorld := { w with world := { w.world with tracker := tracker } }
  if halts c.desk w.world then (stopped, { ended := .halted })
  else
    match strategy (scalpInput c w.world).context loaded with
    | none => (stopped, { ended := .raised })
    | some out =>
      let filtered := gatedOrders c out.2 out.1
      let sent := sentOrders c out.2 out.1
      let final := sent.foldl (processIntradayOrder c w.world.day)
        { loop := { broker := w.world.broker, tracker := tracker }, state := out.2 }
      ({ world := { w.world with broker := final.loop.broker, tracker := final.loop.tracker }
         file := save c.saveNow final.state },
        { ended := .reported
          generated := out.1
          filtered := filtered
          submitted := final.loop.submitted
          blockedSession := filtered.length - sent.length
          accepted := final.loop.accepted
          rejected := (out.1.length - filtered.length) + final.loop.rejected })

/-- The intraday cycle of the scalp rules is one of these. -/
theorem runIntradayCycle_eq (c : IntradayInput) (w : IntradayWorld) :
    runIntradayCycle c w = intradayCycle (fun _ state =>
      (generateSignals c.rules (scalpInput c w.world) state).map fun out =>
        (out.signals.map StrategySignal.toOrder, out.state)) c w := by
  unfold runIntradayCycle intradayCycle
  dsimp only
  split
  · rfl
  · cases generateSignals c.rules (scalpInput c w.world) (load c.loadNow w.file) with
    | none => rfl
    | some out => rfl

/-- The entries of the day are those the state counts. -/
def IntradayEnforced (strategy : IntradayStrategy) (c : IntradayInput) (w : IntradayWorld) : Prop :=
  halts c.desk w.world = false → ∀ orders state,
    strategy (scalpInput c w.world).context (load c.loadNow w.file) = some (orders, state) →
      Enforced c.desk w.world.day (regimeOf (scalpInput c w.world).context c.regimeConfig)
        state.tradeCountToday
        { broker := w.world.broker,
          tracker := (buildRiskSnapshot c.desk 0 w.world.broker w.world.tracker).2 }
        (sentOrders c state orders)

def IntradayHarmless (strategy : IntradayStrategy) (c : IntradayInput) (w : IntradayWorld) : Prop :=
  halts c.desk w.world = false → ∀ orders state,
    strategy (scalpInput c w.world).context (load c.loadNow w.file) = some (orders, state) →
      Harmless c.desk w.world.day (regimeOf (scalpInput c w.world).context c.regimeConfig)
        state.tradeCountToday
        { broker := w.world.broker,
          tracker := (buildRiskSnapshot c.desk 0 w.world.broker w.world.tracker).2 }
        (sentOrders c state orders)

section Loop

variable {c : CycleInput} {day : Int}

theorem accepted_iff (v : Turn) :
    v.1.accepted < (processOrder c day v.1 v.2).accepted ↔ refused c day v = false := by
  unfold processOrder refused
  dsimp only
  split
  · next happroved =>
    rw [Bool.and_eq_true] at happroved
    obtain ⟨hfirst, hsecond⟩ := happroved
    rw [orderAt, snapshotAt, hfirst, hsecond, Bool.true_and, Bool.true_and]
    cases (placeOrder c (v.1.count + 1) day v.1.broker (managedOrder c v.1.broker v.2)
      (isFirstTakeProfit v.2)).2.accepted <;> simp
  · next hrefused =>
    have hno : ((approveOrder c.riskLimits (orderAt c v) (snapshotAt c v)
        (c.readings (v.1.count + 1)).1).approved &&
        (approveOrder c.riskLimits (orderAt c v) (snapshotAt c v)
          (c.readings (v.1.count + 1)).2).approved) = false := eq_false_of_ne_true hrefused
    rw [hno]
    simp

theorem acceptedBuy_eq (v : Turn) : acceptedBuy c day v = (isBuy v && !refused c day v) := by
  rw [acceptedBuy, isBuy]
  congr 1
  cases h : refused c day v with
  | true =>
    rw [Bool.not_true, decide_eq_false_iff_not, accepted_iff, h]
    decide
  | false =>
    rw [Bool.not_false, decide_eq_true_eq, accepted_iff]
    exact h

theorem countP_accepted (before : List Turn) :
    before.countP (acceptedBuy c day) = before.countP fun u => isBuy u && !refused c day u :=
  List.countP_congr fun v _ => by rw [acceptedBuy_eq]

/-- The risk rules never see the regime, so a loop keeps to it exactly when its orders do. -/
theorem enforced_iff (regime : MarketRegime) (earlier : Int) (s : OrderLoop)
    (orders : List OrderRequest) :
    Enforced c day regime earlier s orders ↔ Harmless c day regime earlier s orders := by
  have hsplit : ∀ v, acceptedBuy c day v = true ↔ isBuy v = true ∧ refused c day v = false := by
    intro v
    rw [acceptedBuy_eq, Bool.and_eq_true, Bool.not_eq_true']
  cases regime with
  | bullishTrend => simp [Enforced, Harmless]
  | sideways => simp [Enforced, Harmless]
  | highVolatilityRisk =>
    constructor
    · intro h v hv hbuy
      obtain ⟨before, after, heq⟩ := List.append_of_mem hv
      by_contra hrefused
      have hacc := (hsplit v).mpr ⟨hbuy, eq_false_of_ne_true hrefused⟩
      exact (h before v after heq hacc).1 rfl
    · intro h before v after heq hacc
      obtain ⟨hbuy, hrefused⟩ := (hsplit v).mp hacc
      have hmem : v ∈ turns c day s orders := heq ▸ List.mem_append_right before List.mem_cons_self
      rw [h v hmem hbuy] at hrefused
      cases hrefused
  | bearishTrend =>
    constructor
    · intro h before v after heq hbuy
      cases hrefused : refused c day v with
      | true => exact .inl rfl
      | false =>
        have hwithin := (h before v after heq ((hsplit v).mpr ⟨hbuy, hrefused⟩)).2 rfl
        rw [countP_accepted] at hwithin
        exact .inr hwithin
    · intro h before v after heq hacc
      obtain ⟨hbuy, hrefused⟩ := (hsplit v).mp hacc
      refine ⟨by decide, fun _ => ?_⟩
      rw [countP_accepted]
      obtain hno | hwithin := h before v after heq hbuy
      · rw [hno] at hrefused
        cases hrefused
      · exact hwithin

theorem snapshotAt_regime (v : Turn) : (snapshotAt c v).marketRegime = .sideways := rfl

/-- Under the default limits the least weight of a buy outside a bearish regime is more than
the most a bearish one allows. -/
theorem not_withinBearish {order : OrderRequest} {snapshot : RiskSnapshot} {readings : Readings}
    {entries : Int} (hregime : snapshot.marketRegime = .sideways) (hside : order.side = .buy)
    (happroved : (approveOrder {} order snapshot readings).approved = true) :
    ¬ WithinBearish {} order snapshot entries := by
  intro h
  obtain ⟨price, hbuy⟩ := (approval_sound {} order snapshot readings).2 hside happroved
  have hle := h.weight_le price hbuy.price_eq
  have hge := hbuy.weight_ge
  have hnot : ¬ bearish snapshot := by
    rw [bearish, hregime]
    decide
  rw [effectiveMinimum, weightLimit, if_neg hnot, if_neg hnot] at hge
  have hlt := hge.trans hle
  have hmultiplier : (buildAdaptiveGuard {} snapshot).positionWeightMultiplier = 7 / 10 ∨
      (buildAdaptiveGuard {} snapshot).positionWeightMultiplier = 1 := by
    unfold buildAdaptiveGuard
    dsimp only
    split
    · exact .inl rfl
    · exact .inr rfl
  obtain hm | hm := hmultiplier
  · rw [hm] at hlt
    exact absurd hlt (by decide +kernel)
  · rw [hm] at hlt
    exact absurd hlt (by decide +kernel)

/-- Under the default limits a bearish loop keeps to its regime only when it buys nothing. -/
theorem harmless_default (hlimits : c.riskLimits = {}) (earlier : Int) (s : OrderLoop)
    (orders : List OrderRequest) :
    Harmless c day .bearishTrend earlier s orders ↔
      ∀ v ∈ turns c day s orders, isBuy v = true → refused c day v = true := by
  constructor
  · intro h v hv hbuy
    obtain ⟨before, after, heq⟩ := List.append_of_mem hv
    obtain hno | hwithin := h before v after heq hbuy
    · exact hno
    · by_contra hrefused
      have hpass : refused c day v = false := eq_false_of_ne_true hrefused
      simp only [refused, Bool.not_eq_false', Bool.and_eq_true, hlimits] at hpass
      rw [hlimits] at hwithin
      have hside : (orderAt c v).side = .buy :=
        (managedOrder_side c v.1.broker v.2).trans (of_decide_eq_true hbuy)
      exact not_withinBearish (snapshotAt_regime v) hside hpass.1.1 hwithin
  · intro h before v after heq hbuy
    exact .inl (h v (heq ▸ List.mem_append_right before List.mem_cons_self) hbuy)

end Loop

/-- An index that stood still for twenty days and then lost a fifth. -/
def droppedIndex : List IndexRow :=
  (List.range 21).map fun i => ⟨i, if i = 20 then 80 else 100⟩

def bearishCycle : CycleInput where
  priceUniverse := [⟨"005930", 20, 70000, 70000, 70000, 70000, 1000⟩]
  kospi := droppedIndex
  sp500 := droppedIndex
  generateOrders _ := [smallBuy]
  answers _ := .answered { fields := [] }

def freshAccount : World := { day := 20, broker := .paper {} }

end StockQuant.RegimeEnforcement
