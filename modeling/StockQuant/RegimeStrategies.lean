import StockQuant.Indicators
import StockQuant.SymbolScan

namespace StockQuant.RegimeStrategies

open StockQuant Frame Strategy Indicators SymbolScan

inductive TrailingMode
  | atr
  | nDayLow
  deriving DecidableEq, Repr

structure BullStrategyConfig where
  orderQuantity : Int := 12
  stopLossPct : ℚ := 4
  firstTakeProfitPct : ℚ := 6
  secondTakeProfitPct : ℚ := 10
  timeExitDays : Int := 10
  trailingMode : TrailingMode := .atr
  trailingAtrMultiplier : ℚ := 25 / 10
  trailingNDayLowWindow : Nat := 5

structure BullSignal where
  ma20GtMa60 : Bool
  ma20 : ℚ
  rsi : ℚ
  ret3d : ℚ
  bullish : Bool
  atr14 : ℚ
  lowN : ℚ
  close : ℚ
  deriving Repr

/-- Whether the short average is above the long one; both have to be there. -/
def ma20AboveMa60 (latest : Enriched) : Bool :=
  match latest.ma20, latest.ma60 with
  | some ma20, some ma60 => ma60 < ma20
  | _, _ => false

def bullSymbolSignal (g : SymbolBars) (config : BullStrategyConfig) : BullSignal :=
  let latest := addBasicIndicators g.rows g.rows_ne
  let df := sortByDate g.rows
  let lows := df.map Bar.low
  { ma20GtMa60 := ma20AboveMa60 latest
    ma20 := latest.ma20.getD latest.close
    rsi := latest.rsi14
    ret3d := latest.ret3dPct.getD 0
    bullish := latest.isBullish
    atr14 := (rollingMeanFrom 14 1 (trueRanges df)).getD 0
    lowN := (lows.drop (lows.length - config.trailingNDayLowWindow)).foldl min latest.low
    close := latest.close }

def shouldEnterBull (signal : BullSignal) : Bool :=
  signal.ma20GtMa60 && -6 ≤ signal.ret3d && signal.ret3d ≤ -1 && signal.rsi < 45 && signal.bullish

def trailingStopTriggered (close atr lowN highestPrice : ℚ) (mode : TrailingMode)
    (atrMultiplier : ℚ) : Bool :=
  match mode with
  | .nDayLow => close ≤ lowN
  | .atr => 0 < atr && close ≤ highestPrice - atr * atrMultiplier

def bullEntrySignals (config : BullStrategyConfig) (g : SymbolBars) : List StrategySignal :=
  let q1 := max (Num.toInt (config.orderQuantity * (6 / 10))) 1
  let q2 := max (config.orderQuantity - q1) 1
  let buy (quantity : Int) (reason : String) : StrategySignal :=
    ⟨g.key, .buy, quantity, none, some config.stopLossPct, reason, "bull_strategy"⟩
  if shouldEnterBull (bullSymbolSignal g config) then
    [buy q1 "Bull trend follow first entry", buy q2 "Bull pullback add entry"]
  else []

def bullExitSignals (config : BullStrategyConfig) (g : SymbolBars) (position : PortfolioRow) :
    List StrategySignal :=
  let signal := bullSymbolSignal g config
  let entry := position.averagePrice
  let qty := position.quantity
  let holdDays := position.holdDays.getD 0
  let firstTpDone := position.firstTakeProfitDone.getD false
  let pnl := pnlPct signal.close entry
  let highestPrice := max (position.highestPriceSinceEntry.getD entry) signal.close
  let sell (quantity : Int) (reason : String) : List StrategySignal :=
    [exitSignal g.key quantity reason "bull_strategy"]
  if entry ≤ 0 ∨ qty ≤ 0 then []
  else if pnl ≤ -|config.stopLossPct| then sell qty "Stop-loss priority exit"
  else if firstTpDone = false ∧ config.firstTakeProfitPct ≤ pnl then
    sell (halfQuantity qty) "First TP partial exit"
  else if firstTpDone ∧ trailingStopTriggered signal.close signal.atr14 signal.lowN highestPrice
      config.trailingMode config.trailingAtrMultiplier then
    sell qty "Trailing exit on remaining position"
  else if config.secondTakeProfitPct ≤ pnl ∧ signal.close < signal.ma20 then
    sell qty "Second TP + trend weakness full exit"
  else if config.timeExitDays ≤ holdDays ∧ pnl ≤ 0 then sell qty "Time exit"
  else []

structure BearStrategyConfig where
  orderQuantity : Int := 3
  stopLossPct : ℚ := 18 / 10
  firstTakeProfitPct : ℚ := 2
  secondTakeProfitPct : ℚ := 32 / 10
  timeExitDays : Int := 1
  maxNewEntriesPerCycle : Int := 1
  allowNewEntries : Bool := true
  reboundEntryDrop3dPct : ℚ := -6
  reboundEntryRsiMax : ℚ := 28

def shouldEnterDefensiveRebound (latest : Enriched) (cfg : BearStrategyConfig) : Bool :=
  latest.ret3dPct.getD 0 ≤ cfg.reboundEntryDrop3dPct && latest.rsi14 < cfg.reboundEntryRsiMax &&
    latest.isBullish

def bearEntrySignals (config : BearStrategyConfig) (newEntryCount : Nat) (g : SymbolBars) :
    List StrategySignal :=
  if config.allowNewEntries && newEntryCount < config.maxNewEntriesPerCycle &&
      shouldEnterDefensiveRebound (addBasicIndicators g.rows g.rows_ne) config then
    [⟨g.key, .buy, config.orderQuantity, none, some config.stopLossPct,
      "Defensive short rebound entry", "bear_strategy"⟩]
  else []

def bearExitSignals (cfg : BearStrategyConfig) (g : SymbolBars) (position : PortfolioRow) :
    List StrategySignal :=
  let entry := position.averagePrice
  let qty := position.quantity
  let pnl := pnlPct (addBasicIndicators g.rows g.rows_ne).close entry
  let sell (quantity : Int) (reason : String) : List StrategySignal :=
    [exitSignal g.key quantity reason "bear_strategy"]
  if entry ≤ 0 ∨ qty ≤ 0 then []
  else if pnl ≤ -|cfg.stopLossPct| then sell qty "Bear stop-loss priority exit"
  else if cfg.secondTakeProfitPct ≤ pnl then sell qty "Bear second TP full exit"
  else if cfg.firstTakeProfitPct ≤ pnl then
    sell (halfQuantity qty) "Bear first TP partial exit"
  else if cfg.timeExitDays ≤ position.holdDays.getD 0 ∧ pnl ≤ 5 / 10 then sell qty "Bear time exit"
  else []

structure SidewaysStrategyConfig where
  orderQuantity : Int := 5
  stopLossPct : ℚ := 3
  takeProfitPct : ℚ := 4
  timeExitDays : Int := 4
  maxNewEntriesPerCycle : Int := 1

def shouldEnterMeanReversion (latest : Enriched) : Bool :=
  latest.ma20.any (latest.close < ·) && latest.rsi14 < 38 && latest.isBullish

def sidewaysEntrySignals (config : SidewaysStrategyConfig) (entries : Nat) (g : SymbolBars) :
    List StrategySignal :=
  if entries < config.maxNewEntriesPerCycle &&
      shouldEnterMeanReversion (addBasicIndicators g.rows g.rows_ne) then
    [⟨g.key, .buy, config.orderQuantity, none, some config.stopLossPct,
      "Sideways limited mean-reversion entry", "sideways_strategy"⟩]
  else []

def sidewaysExitSignals (cfg : SidewaysStrategyConfig) (g : SymbolBars)
    (position : PortfolioRow) : List StrategySignal :=
  let entry := position.averagePrice
  let qty := position.quantity
  let pnl := pnlPct (addBasicIndicators g.rows g.rows_ne).close entry
  let sell (reason : String) : List StrategySignal :=
    [exitSignal g.key qty reason "sideways_strategy"]
  if entry ≤ 0 ∨ qty ≤ 0 then []
  else if pnl ≤ -|cfg.stopLossPct| then sell "Sideways stop-loss priority exit"
  else if cfg.takeProfitPct ≤ pnl then sell "Sideways take-profit exit"
  else if cfg.timeExitDays ≤ position.holdDays.getD 0 ∧ pnl ≤ 0 then sell "Sideways time exit"
  else []

def bullRules (config : BullStrategyConfig) : SymbolRules where
  entry _ := bullEntrySignals config
  exit := bullExitSignals config
  entry_symbol := by
    unfold bullEntrySignals
    grind
  entry_buys := by
    unfold bullEntrySignals
    grind
  exit_symbol := by
    unfold bullExitSignals exitSignal
    grind
  exit_once := by
    unfold bullExitSignals
    grind

def bearRules (config : BearStrategyConfig) : SymbolRules where
  entry := bearEntrySignals config
  exit := bearExitSignals config
  entry_symbol := by
    unfold bearEntrySignals
    grind
  entry_buys := by
    unfold bearEntrySignals
    grind
  exit_symbol := by
    unfold bearExitSignals exitSignal
    grind
  exit_once := by
    unfold bearExitSignals
    grind

def sidewaysRules (config : SidewaysStrategyConfig) : SymbolRules where
  entry := sidewaysEntrySignals config
  exit := sidewaysExitSignals config
  entry_symbol := by
    unfold sidewaysEntrySignals
    grind
  entry_buys := by
    unfold sidewaysEntrySignals
    grind
  exit_symbol := by
    unfold sidewaysExitSignals exitSignal
    grind
  exit_once := by
    unfold sidewaysExitSignals
    grind

/-- A position not at profit whose time is up is sold whole, by the stop if not by the time
exit. -/
theorem bullExitSignals_time_up {config : BullStrategyConfig} {g : SymbolBars} {p : PortfolioRow}
    (hentry : 0 < p.averagePrice) (hqty : 0 < p.quantity)
    (hprofit : 0 < config.firstTakeProfitPct)
    (htime : config.timeExitDays ≤ p.holdDays.getD 0)
    (hpnl : pnlPct (lastClose g.rows g.rows_ne) p.averagePrice ≤ 0) :
    ∃ reason, bullExitSignals config g p =
      [exitSignal g.key p.quantity reason "bull_strategy"] := by
  have hvalid : ¬(p.averagePrice ≤ 0 ∨ p.quantity ≤ 0) :=
    not_or.mpr ⟨not_le.mpr hentry, not_le.mpr hqty⟩
  have hpnl' : pnlPct (bullSymbolSignal g config).close p.averagePrice ≤ 0 := hpnl
  have hnoprofit : ¬(p.firstTakeProfitDone.getD false = false ∧
      config.firstTakeProfitPct ≤ pnlPct (bullSymbolSignal g config).close p.averagePrice) :=
    fun h => absurd (hprofit.trans_le (h.2.trans hpnl')) (lt_irrefl 0)
  unfold bullExitSignals
  dsimp only
  rw [if_neg hvalid, if_neg hnoprofit]
  split
  · exact ⟨_, rfl⟩
  · split
    · exact ⟨_, rfl⟩
    · split
      · exact ⟨_, rfl⟩
      · rw [if_pos ⟨htime, hpnl'⟩]
        exact ⟨_, rfl⟩

end StockQuant.RegimeStrategies
