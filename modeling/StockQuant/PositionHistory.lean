import StockQuant.DailyCycle
import StockQuant.HoldingsWatched
import StockQuant.Machine

namespace StockQuant.PositionHistory

open StockQuant Frame OrderModels Strategy Brokers DailyCycle MarketRegime Indicators
open SymbolScan RegimeStrategies SwingStrategy HoldingsWatched Machine

/-- What moves an account between and during its days. Fills and lapses come from KIS; the
paper broker has none of its own. -/
inductive Event
  | cycle (c : CycleInput)
  | nextDay
  | fill (i : Nat) (quantity : Int) (fillPrice : ℚ)
  | lapse (i : Nat)

def step (w : World) : Event → World
  | .cycle c => (runDailyCycle c w).1
  | .nextDay => { w with day := w.day + 1 }
  | .fill i quantity fillPrice =>
    match w.broker with
    | .paper _ => w
    | .kis a => { w with broker := .kis (a.fill w.day i quantity fillPrice) }
  | .lapse i =>
    match w.broker with
    | .paper _ => w
    | .kis a => { w with broker := .kis (a.drop i) }

/-- An account that holds nothing and has nothing booked. -/
def Fresh (w : World) : Prop :=
  w.broker.book.positions = [] ∧ ∀ symbol, w.broker.pending symbol = 0

/-- The portfolio row of every held symbol carries the days since the position was opened,
and tells whether a first take-profit sell of it has been filled. -/
def SeesHistory (c : CycleInput) (w : World) : Prop :=
  ∀ context, (runDailyCycle c w).2.context = some context →
    ∀ p ∈ w.broker.book.positions, ∃ row,
      getPositionRow context.portfolio p.symbol = some row ∧
        row.holdDays.getD 0 = w.day - p.openedDay ∧
        row.firstTakeProfitDone.getD false = decide (0 < p.firstTakeProfits)

def swingOrders (std : List ℚ → ℚ) (s : Swing) (context : StrategyContext) : List OrderRequest :=
  (SwingStrategy.generateSignals std s context).signals.map StrategySignal.toOrder

/-- The strategy of the cycle is a `SwingStrategy`. -/
def RunsSwing (std : List ℚ → ℚ) (c : CycleInput) : Prop :=
  ∃ s : Swing, c.generateOrders = swingOrders std s

/-- A position with price rows that is not at profit once the time exit of the bullish
strategy is due for it. -/
def TimeUp (s : Swing) (c : CycleInput) (w : World) (p : TrackedPosition) : Prop :=
  0 < s.bullStrategy.firstTakeProfitPct ∧ 0 < p.view.averagePrice ∧
    s.bullStrategy.timeExitDays ≤ w.day - p.openedDay ∧
    ∃ g ∈ bySymbol c.priceUniverse, g.key = p.symbol ∧
      pnlPct (lastClose g.rows g.rows_ne) p.view.averagePrice ≤ 0

/-- A cycle of `SwingStrategy` in its bullish branch sells every position whose time is up. -/
def SellsTimeUp (std : List ℚ → ℚ) (c : CycleInput) (w : World) : Prop :=
  ∀ context, (runDailyCycle c w).2.context = some context →
    ∀ s : Swing, c.generateOrders = swingOrders std s →
      regimeOf context s.regimeConfig = .bullishTrend →
      ∀ p ∈ w.broker.book.positions, TimeUp s c w p →
        ∃ o ∈ (runDailyCycle c w).2.submitted,
          o.symbol = p.symbol ∧ o.side = .sell ∧ o.quantity = p.view.quantity

/-- When a cycle asks its strategy, every position was opened the day before and none of its
first take-profit sells has been filled or is booked; one whose time is up is ranked. -/
def OpenedTheDayBefore (std : List ℚ → ℚ) (c : CycleInput) (w : World) : Prop :=
  asksStrategy c w → ∀ p ∈ w.broker.book.positions,
    w.day = p.openedDay + 1 ∧ p.firstTakeProfits = 0 ∧ w.broker.pending p.symbol = 0 ∧
      ∀ s : Swing, c.generateOrders = swingOrders std s → TimeUp s c w p →
        RankedByQuality std (strategyContext c w) s p.symbol

theorem portfolio_symbols (broker : Broker) :
    (portfolioDfFromBroker broker).map PortfolioRow.symbol =
      broker.book.positions.map TrackedPosition.symbol := by
  simp only [portfolioDfFromBroker, Broker.getPositions, Book.views, List.map_map]
  rfl

/-- The row rebuilt for a position: its view, one day and no history. -/
theorem portfolio_row {broker : Broker} {p : TrackedPosition} (h : p ∈ broker.book.positions) :
    getPositionRow (portfolioDfFromBroker broker) p.symbol =
      some { symbol := p.symbol, quantity := p.view.quantity,
             averagePrice := p.view.averagePrice, holdDays := some 1 } := by
  have hnodup := broker.book.distinct
  rw [← portfolio_symbols] at hnodup
  exact lastBy_eq_some hnodup (List.mem_map_of_mem (List.mem_map_of_mem h))

/-- The strategy sees the history exactly of positions one day old without a filled first
take-profit sell. -/
theorem seesHistory_iff {c : CycleInput} {w : World} : SeesHistory c w ↔
    (asksStrategy c w → ∀ p ∈ w.broker.book.positions,
      w.day = p.openedDay + 1 ∧ p.firstTakeProfits = 0) := by
  apply Iff.intro
  · intro h hasks p hp
    obtain ⟨row, hrow, hdays, hdone⟩ := h _ (runDailyCycle_asks hasks).2.1 p hp
    obtain rfl := Option.some.inj ((portfolio_row hp).symm.trans hrow)
    simp only [Option.getD_some, Option.getD_none] at hdays hdone
    have hnone := of_decide_eq_false hdone.symm
    omega
  · intro h context hcontext p hp
    by_cases hasks : asksStrategy c w
    · obtain rfl := Option.some.inj ((runDailyCycle_asks hasks).2.1.symm.trans hcontext)
      obtain ⟨hday, hnone⟩ := h hasks p hp
      refine ⟨_, portfolio_row hp, ?_, ?_⟩
      · simp only [Option.getD_some]
        omega
      · simp [hnone]
    · rw [(runDailyCycle_halted hasks).2] at hcontext
      cases hcontext

theorem sellsTimeUp_of_fits {std : List ℚ → ℚ} {c : CycleInput} {w : World}
    (h : OpenedTheDayBefore std c w) : SellsTimeUp std c w := by
  intro context hcontext s hs hregime p hp htime
  by_cases hasks : asksStrategy c w
  · obtain ⟨-, hcon, hsub⟩ := runDailyCycle_asks hasks
    obtain rfl := Option.some.inj (hcon.symm.trans hcontext)
    obtain ⟨hday, -, -, hranked⟩ := h hasks p hp
    obtain ⟨hprofit, havg, hdue, g, hg, hkey, hpnl⟩ := htime
    have htop := rankedByQuality_iff.mp (hranked s hs ⟨hprofit, havg, hdue, g, hg, hkey, hpnl⟩)
    have hone : s.bullStrategy.timeExitDays ≤ 1 := by omega
    have hrow : getPositionRow (strategyContext c w).portfolio g.key =
        some { symbol := p.symbol, quantity := p.view.quantity,
               averagePrice := p.view.averagePrice, holdDays := some 1 } := by
      rw [hkey]
      exact portfolio_row hp
    obtain ⟨reason, hexit⟩ := bullExitSignals_time_up (g := g)
      (p := { symbol := p.symbol, quantity := p.view.quantity,
              averagePrice := p.view.averagePrice, holdDays := some 1 })
      havg (w.broker.book.positive p hp) hprofit hone hpnl
    have hsignal : exitSignal g.key p.view.quantity reason "bull_strategy" ∈
        (SwingStrategy.generateSignals std s (strategyContext c w)).signals := by
      apply mem_signals_of_exit hg (hkey ▸ htop) hrow
      rw [hregime]
      change _ ∈ bullExitSignals s.bullStrategy g _
      rw [hexit]
      exact List.mem_cons_self
    have horder := List.mem_map_of_mem (f := StrategySignal.toOrder) hsignal
    rw [hsub]
    refine ⟨(exitSignal g.key p.view.quantity reason "bull_strategy").toOrder,
      foldl_submits_sell ?_ rfl _, hkey, rfl, rfl⟩
    rw [hs]
    exact horder
  · rw [(runDailyCycle_halted hasks).2] at hcontext
    cases hcontext

/-- A swing cycle asks for one first take-profit sell of a held symbol at most. -/
theorem swingOrders_takeProfits (std : List ℚ → ℚ) (s : Swing) (context : StrategyContext)
    (symbol : String) : takeProfitsOf symbol (swingOrders std s context) ≤
      if symbol ∈ context.portfolio.map PortfolioRow.symbol then 1 else 0 := by
  refine le_trans ?_ (generateSignals_sells std s context symbol)
  rw [takeProfitsOf, swingOrders, List.countP_map, sellsOf]
  apply List.countP_mono_left
  intro signal _ h
  simp only [Function.comp_apply, Bool.and_eq_true, decide_eq_true_eq, isFirstTakeProfit] at h
  simp only [Bool.and_eq_true, decide_eq_true_eq]
  exact ⟨h.1.symm, h.2.1⟩

/-- The first take-profit sells of each symbol, filled or still booked, are one at most. -/
def SoldOnce (w : World) : Prop := ∀ symbol, w.broker.SalesAtMost symbol 1

theorem cycle_soldOnce {std : List ℚ → ℚ} {c : CycleInput} {w : World} (h : SoldOnce w)
    (hfits : OpenedTheDayBefore std c w) (hswing : RunsSwing std c) :
    SoldOnce (runDailyCycle c w).1 := by
  intro symbol
  by_cases hasks : asksStrategy c w
  · obtain ⟨s, hs⟩ := hswing
    have horders := swingOrders_takeProfits std s (strategyContext c w) symbol
    rw [show (strategyContext c w).portfolio.map PortfolioRow.symbol =
      w.broker.book.positions.map TrackedPosition.symbol from portfolio_symbols w.broker] at horders
    unfold Broker.SalesAtMost
    rw [(runDailyCycle_asks hasks).1, orderLoop, hs]
    split at horders
    · case isTrue hheld =>
      -- A held symbol starts the cycle with no such sell, so one order keeps the bound.
      obtain ⟨p, hp, rfl⟩ := List.mem_map.mp hheld
      have hzero : w.broker.SalesAtMost p.symbol 0 := by
        refine ⟨(hfits hasks p hp).2.2.1.le, fun q hq hsame => ?_⟩
        have hnone := (hfits hasks q hq).2.1
        have hpending := (hfits hasks p hp).2.2.1
        omega
      exact (foldl_salesAtMost _ hzero).mono (by omega)
    · exact (foldl_salesAtMost _ (h symbol)).mono (by omega)
  · unfold Broker.SalesAtMost
    rw [(runDailyCycle_halted hasks).1]
    exact h symbol

theorem step_soldOnce {std : List ℚ → ℚ} {w : World} {e : Event} (h : SoldOnce w)
    (hok : ∀ c, e = .cycle c → OpenedTheDayBefore std c w ∧ RunsSwing std c) :
    SoldOnce (step w e) := by
  cases e with
  | cycle c => exact cycle_soldOnce h (hok c rfl).1 (hok c rfl).2
  | nextDay => exact h
  | fill i quantity fillPrice =>
    intro symbol
    cases hb : w.broker with
    | paper b =>
      simp only [step, hb]
      exact hb ▸ h symbol
    | kis a =>
      simp only [step, hb]
      exact KisAccount.fill_salesAtMost (hb ▸ h symbol)
  | lapse i =>
    intro symbol
    cases hb : w.broker with
    | paper b =>
      simp only [step, hb]
      exact hb ▸ h symbol
    | kis a =>
      simp only [step, hb]
      exact KisAccount.drop_salesAtMost (hb ▸ h symbol)

theorem soldOnce_of_fresh {w : World} (h : Fresh w) : SoldOnce w := by
  intro symbol
  refine ⟨(h.2 symbol).le.trans (Nat.zero_le 1), fun p hp => ?_⟩
  rw [h.1] at hp
  cases hp

/-- In every run whose cycles meet positions of the day before only, the rows tell the true
history, the time exit sells, and the first take-profit is sold once at most. -/
theorem history_seen (std : List ℚ → ℚ) (start : World) (es : List Event) (hstart : Fresh start)
    (hfits : ∀ v ∈ visits step start es, ∀ c, v.2 = .cycle c → OpenedTheDayBefore std c v.1) :
    (∀ v ∈ visits step start es, ∀ c, v.2 = .cycle c →
      SeesHistory c v.1 ∧ SellsTimeUp std c v.1) ∧
    ((∀ v ∈ visits step start es, ∀ c, v.2 = .cycle c → RunsSwing std c) →
      SoldOnce (run step start es)) := by
  apply And.intro
  · intro v hv c hc
    have hfit := hfits v hv c hc
    refine ⟨seesHistory_iff.mpr fun hasks p hp => ?_, sellsTimeUp_of_fits hfit⟩
    exact ⟨(hfit hasks p hp).1, (hfit hasks p hp).2.1⟩
  · intro hswing
    apply run_invariant (fun _ _ => step_soldOnce) (soldOnce_of_fresh hstart)
    intro v hv c hc
    exact ⟨hfits v hv c hc, hswing v hv c hc⟩

/-- Fifty days up, ten days down, closing on a rising candle. -/
def risingThenFalling : List Bar :=
  (List.range 61).map fun (i : Nat) =>
    let close : ℚ := if i ≤ 50 then 150000 + 1800 * i else 240000 - 3000 * (i - 50)
    ⟨"005930", i, close - 100, close, close - 200, close, 1000⟩

def swingCycle (prices : List Bar) : CycleInput where
  priceUniverse := prices
  kospi := []
  sp500 := []
  generateOrders := swingOrders (fun _ => 0) {}
  answers := fun _ => .raised ⟨"not a KIS account"⟩ false

theorem swingCycle_runs (prices : List Bar) : RunsSwing (fun _ => 0) (swingCycle prices) := by
  refine ⟨{}, ?_⟩
  simp only [swingCycle]

def newPaperAccount : World where
  day := 0
  broker := .paper {}

theorem newPaperAccount_fresh : Fresh newPaperAccount := ⟨rfl, fun _ => rfl⟩

/-- The swing strategy buys five shares on the first day. -/
theorem swingCycle_buys :
    (step newPaperAccount (.cycle (swingCycle risingThenFalling))).broker.book.positions =
      [⟨⟨"005930", 5, 210000⟩, 0, 0⟩] := by
  decide +kernel

/-- Two days later the strategy is still told that the position is one day old. -/
theorem two_days_unseen :
    Fresh newPaperAccount ∧
      ¬SeesHistory (swingCycle risingThenFalling) (run step newPaperAccount
        [.cycle (swingCycle risingThenFalling), .nextDay, .nextDay]) := by
  refine ⟨newPaperAccount_fresh, fun h => ?_⟩
  have hasks : asksStrategy (swingCycle risingThenFalling) (run step newPaperAccount
      [.cycle (swingCycle risingThenFalling), .nextDay, .nextDay]) := by
    decide
  have hday := (seesHistory_iff.mp h hasks ⟨⟨"005930", 5, 210000⟩, 0, 0⟩
    (swingCycle_buys ▸ List.mem_cons_self)).1
  exact absurd hday (by decide)

/-- The next day the price is above the entry. -/
def nextDayBar : Bar := ⟨"005930", 61, 214000, 216000, 213000, 215000, 1000⟩

theorem nextDay_profit {s : Swing} {w : World} {p : TrackedPosition}
    (hp : p = ⟨⟨"005930", 5, 210000⟩, 0, 0⟩) : ¬TimeUp s (swingCycle [nextDayBar]) w p := by
  rintro ⟨-, -, -, ⟨key, rows, hne⟩, hg, hkey, hpnl⟩
  subst hp
  obtain rfl : key = "005930" := hkey
  obtain rfl : rows = [nextDayBar] := rows_of_mem_groupBy hg
  change pnlPct 215000 210000 ≤ 0 at hpnl
  exact absurd hpnl (by decide +kernel)

theorem nextDay_fits {w : World} (hday : w.day = 1)
    (hbook : w.broker.book.positions = [⟨⟨"005930", 5, 210000⟩, 0, 0⟩])
    (hpending : w.broker.pending "005930" = 0) :
    OpenedTheDayBefore (fun _ => 0) (swingCycle [nextDayBar]) w := by
  intro _ p hp
  rw [hbook] at hp
  obtain rfl := List.mem_singleton.mp hp
  exact ⟨hday, rfl, hpending, fun s _ htime => absurd htime (nextDay_profit rfl)⟩

def twoDays : List Event :=
  [.cycle (swingCycle risingThenFalling), .nextDay, .cycle (swingCycle [nextDayBar])]

/-- A run of two days in which the strategy does see the history. -/
theorem two_days_seen :
    (∀ v ∈ visits step newPaperAccount twoDays, ∀ c, v.2 = .cycle c →
      SeesHistory c v.1 ∧ SellsTimeUp (fun _ => 0) c v.1) ∧
    SoldOnce (run step newPaperAccount twoDays) := by
  have hseen := history_seen (fun _ => 0) newPaperAccount twoDays newPaperAccount_fresh (by
    intro v hv c hc
    obtain hv | hv | hv | hv := (List.mem_cons.trans (or_congr_right (List.mem_cons.trans
      (or_congr_right List.mem_cons)))).mp hv
    · obtain rfl := hv
      obtain rfl := Event.cycle.inj hc
      exact fun _ p hp => absurd hp List.not_mem_nil
    · obtain rfl := hv
      exact nomatch hc
    · obtain rfl := hv
      obtain rfl := Event.cycle.inj hc
      exact nextDay_fits (by decide +kernel) swingCycle_buys (by decide +kernel)
    · cases hv)
  refine ⟨hseen.1, hseen.2 fun v hv c hc => ?_⟩
  obtain hv | hv | hv | hv := (List.mem_cons.trans (or_congr_right (List.mem_cons.trans
    (or_congr_right List.mem_cons)))).mp hv
  · obtain rfl := hv
    obtain rfl := Event.cycle.inj hc
    exact swingCycle_runs _
  · obtain rfl := hv
    exact nomatch hc
  · obtain rfl := hv
    obtain rfl := Event.cycle.inj hc
    exact swingCycle_runs _
  · cases hv

end StockQuant.PositionHistory
